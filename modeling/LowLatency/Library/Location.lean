import Mathlib.Data.Nat.Basic
import Mathlib.Logic.Function.Basic
import Mathlib.Order.Basic

/-!
# Atomic locations with stale loads

An atomic location keeps every value it has held, in modification order. A thread which
has last read the value at some place in that order may read the value at this or any
later place: a load may be stale, but never older than what the thread has already read.
-/

universe u v

/-- An atomic location: `value k` for `k ≤ last` are the values it has held, in
modification order. -/
structure Location (V : Type u) where
  last : ℕ
  value : ℕ → V

namespace Location

variable {V : Type u} {W : Type v}

/-- The location which has held only `v`. -/
def init (v : V) : Location V where
  last := 0
  value _ := v

/-- The value a location holds. -/
def current (l : Location V) : V :=
  l.value l.last

/-- The location after `v` is stored in it. -/
def store (l : Location V) (v : V) : Location V where
  last := l.last + 1
  value := Function.update l.value (l.last + 1) v

/-- The value at place `k`, which a thread that has last read the value at place `view`
may load. -/
def load (l : Location V) (view k : ℕ) : Option V :=
  if view ≤ k ∧ k ≤ l.last then some (l.value k) else none

/-- The location holding the images of the values. -/
def map (f : V → W) (l : Location V) : Location W where
  last := l.last
  value k := f (l.value k)

@[simp]
theorem last_store (l : Location V) (v : V) :
  (l.store v).last = l.last + 1
  := rfl

@[simp]
theorem current_store (l : Location V) (v : V) :
  (l.store v).current = v
  := by
  apply Function.update_self

/-- A store leaves the values held before it. -/
theorem value_store_of_le (l : Location V) (v : V) {k : ℕ} (hk : k ≤ l.last) :
  (l.store v).value k = l.value k
  := by
  apply Function.update_of_ne
  omega

@[simp]
theorem value_store_last (l : Location V) (v : V) :
  (l.store v).value (l.last + 1) = v
  := by
  apply Function.update_self

/-- What a load reads, and from which places. -/
theorem load_eq_some_iff {l : Location V} {view k : ℕ} {v : V} :
  l.load view k = some v ↔ view ≤ k ∧ k ≤ l.last ∧ l.value k = v
  := by
  simp only [load, Option.ite_none_right_eq_some, Option.some.injEq, and_assoc]

/-- A load of the current value. -/
theorem load_last {l : Location V} {view : ℕ} (h : view ≤ l.last) :
  l.load view l.last = some l.current
  := load_eq_some_iff.mpr ⟨h, le_rfl, rfl⟩

@[simp]
theorem last_map (f : V → W) (l : Location V) :
  (l.map f).last = l.last
  := rfl

@[simp]
theorem value_map (f : V → W) (l : Location V) (k : ℕ) :
  (l.map f).value k = f (l.value k)
  := rfl

@[simp]
theorem current_map (f : V → W) (l : Location V) :
  (l.map f).current = f l.current
  := rfl

@[simp]
theorem map_store (f : V → W) (l : Location V) (v : V) :
  (l.store v).map f = (l.map f).store (f v)
  := by
  simp only [map, store, mk.injEq, true_and]
  funext k
  by_cases hk : k = l.last + 1
  · subst hk
    simp
  · simp [hk]

@[simp]
theorem load_map (f : V → W) (l : Location V) (view k : ℕ) :
  (l.map f).load view k = (l.load view k).map f
  := by
  by_cases h : view ≤ k ∧ k ≤ l.last
  · simp [load, h]
  · simp [load, h]

/-! ### Later states of a location -/

/-- `l'` is `l` after some stores. -/
structure Extends (l l' : Location V) : Prop where
  last_le : l.last ≤ l'.last
  value_eq : ∀ ⦃k : ℕ⦄, k ≤ l.last → l'.value k = l.value k

theorem Extends.refl (l : Location V) :
  l.Extends l
  := by
  constructor
  · apply Nat.le_refl
  · intro _ _
    rfl

theorem Extends.trans {l₁ l₂ l₃ : Location V} (h : l₁.Extends l₂) (h' : l₂.Extends l₃) :
  l₁.Extends l₃
  := by
  constructor
  · apply le_trans h.last_le h'.last_le
  · intro k hk
    rw [h'.value_eq (le_trans hk h.last_le), h.value_eq hk]

/-- A later state in which nothing more is stored holds the same value. -/
theorem Extends.current_eq {l l' : Location V} (h : l.Extends l') (hlast : l'.last = l.last) :
  l'.current = l.current
  := by
  rw [current, hlast]
  apply h.value_eq le_rfl

/-- A location after a store is a later state of it. -/
theorem extends_store (l : Location V) (v : V) :
  l.Extends (l.store v)
  := by
  constructor
  · rw [last_store]
    omega
  · intro k hk
    apply value_store_of_le l v hk

/-! ### Locations which only grow -/

section Growing

variable [Preorder V]

/-- The values a location has held are ordered as it held them. -/
def Growing (l : Location V) : Prop :=
  ∀ ⦃j k : ℕ⦄, j ≤ k → k ≤ l.last → l.value j ≤ l.value k

theorem growing_init (v : V) :
  (init v).Growing
  := by
  intro _ _ _ _
  apply le_rfl

/-- No value held exceeds the value a growing location holds. -/
theorem Growing.le_current {l : Location V} (h : l.Growing) {k : ℕ} (hk : k ≤ l.last) :
  l.value k ≤ l.current
  := h hk le_rfl

/-- A later state of a growing location holds a larger value. -/
theorem Growing.current_le_of_extends {l l' : Location V} (h' : l'.Growing)
    (h : l.Extends l') :
  l.current ≤ l'.current
  := by
  rw [current, ← h.value_eq le_rfl]
  apply h'.le_current h.last_le

/-- Storing a value above the current one keeps a location growing. -/
theorem Growing.store {l : Location V} (h : l.Growing) {v : V} (hv : l.current ≤ v) :
  (l.store v).Growing
  := by
  intro j k hjk hk
  rcases Nat.lt_or_ge l.last k with hlast | hlast
  · obtain rfl : k = l.last + 1 := by
      rw [last_store] at hk
      omega
    rw [value_store_last]
    rcases Nat.lt_or_ge l.last j with hj | hj
    · obtain rfl : j = l.last + 1 := by omega
      rw [value_store_last]
    · rw [value_store_of_le l v hj]
      apply le_trans (h.le_current hj) hv
  · rw [value_store_of_le l v hlast, value_store_of_le l v (le_trans hjk hlast)]
    apply h hjk hlast

/-- A load from a growing location reads at least the value last read and at most the
current value. -/
theorem Growing.load {l : Location V} (h : l.Growing) {view k : ℕ} {v : V}
    (hl : l.load view k = some v) :
  l.value view ≤ v ∧ v ≤ l.current
  := by
  obtain ⟨hview, hk, rfl⟩ := load_eq_some_iff.mp hl
  constructor
  · apply h hview hk
  · apply h.le_current hk

end Growing

/-! ### Locations which count -/

/-- A location which has held `0, …, n` in order. -/
structure Counts (l : Location ℕ) (n : ℕ) : Prop where
  last : l.last = n
  value : ∀ ⦃k : ℕ⦄, k ≤ n → l.value k = k

theorem counts_init : (init 0).Counts 0 := by
  constructor
  · rfl
  · intro k hk
    rw [Nat.le_zero.mp hk]
    rfl

/-- Storing the next number. -/
theorem Counts.store {l : Location ℕ} {n : ℕ} (h : l.Counts n) :
  (l.store (n + 1)).Counts (n + 1)
  := by
  constructor
  · rw [last_store, h.last]
  · intro k hk
    rcases Nat.lt_or_ge n k with hlt | hge
    · obtain rfl : k = l.last + 1 := by
        rw [h.last]
        omega
      rw [value_store_last, h.last]
    · rw [value_store_of_le _ _ (h.last.symm ▸ hge), h.value hge]

/-- A load reads a number counted. -/
theorem Counts.load_le {l : Location ℕ} {n view k v : ℕ} (h : l.Counts n)
    (hl : l.load view k = some v) :
  v ≤ n
  := by
  obtain ⟨-, hk, rfl⟩ := load_eq_some_iff.mp hl
  rw [h.last] at hk
  rw [h.value hk]
  apply hk

end Location
