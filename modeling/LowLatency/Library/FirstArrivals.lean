import Mathlib.Data.Finset.Card
import Mathlib.Data.List.Basic

/-!
# First arrivals

The first arrivals of a list, and those that come after a larger one. A high-water mark tells
whether a larger one has come before.
-/

universe u

namespace FirstArrivals

variable {α : Type u}

section Firsts

variable [DecidableEq α] {xs : List α} {x : α}

/-- The entries that arrive, each where it arrives first. -/
def firsts (xs : List α) : List α :=
  xs.foldl (fun seen x => if x ∈ seen then seen else seen ++ [x]) []

/-- One more entry arrives. -/
theorem firsts_concat :
  firsts (xs ++ [x]) = if x ∈ firsts xs then firsts xs else firsts xs ++ [x]
  := by
  rw [firsts, List.foldl_append]
  rfl

/-- What arrives arrives first somewhere. -/
@[simp]
theorem mem_firsts {y : α} : y ∈ firsts xs ↔ y ∈ xs := by
  induction xs using List.reverseRecOn with
  | nil => rfl
  | append_singleton xs x ih =>
      rw [firsts_concat, List.mem_append, List.mem_singleton, ← ih]
      split_ifs with h
      · constructor
        · intro hy
          left
          apply hy
        · rintro (hy | rfl)
          · apply hy
          · apply h
      · rw [List.mem_append, List.mem_singleton]

/-- Nothing arrives first twice. -/
theorem nodup_firsts : (firsts xs).Nodup := by
  induction xs using List.reverseRecOn with
  | nil => apply List.nodup_nil
  | append_singleton xs x ih =>
      rw [firsts_concat]
      split_ifs with h
      · apply ih
      · rw [List.nodup_append]
        refine ⟨ih, List.nodup_singleton x, ?_⟩
        intro y hy z hz
        rw [List.mem_singleton] at hz
        rintro rfl
        apply h (hz ▸ hy)

/-- There are as many first arrivals as distinct entries. -/
theorem length_firsts (xs : List α) : (firsts xs).length = xs.toFinset.card := by
  rw [← List.toFinset_card_of_nodup nodup_firsts]
  congr 1
  ext y
  rw [List.mem_toFinset, List.mem_toFinset, mem_firsts]

theorem length_firsts_le (xs : List α) : (firsts xs).length ≤ xs.length := by
  rw [length_firsts]
  apply List.toFinset_card_le

end Firsts

section Overtaken

variable [LinearOrder α] {xs : List α} {x : α}

/-- The number of entries that come after a larger one. -/
def overtaken (xs : List α) : ℕ :=
  xs.zipIdx.countP fun (x, i) => (xs.take i).any (x < ·)

/-- One more entry. -/
theorem overtaken_concat :
  overtaken (xs ++ [x]) = overtaken xs + if xs.any (x < ·) then 1 else 0
  := by
  have hbefore : xs.zipIdx.countP (fun (y, i) => ((xs ++ [x]).take i).any (y < ·))
      = overtaken xs := by
    apply List.countP_congr
    rintro ⟨y, i⟩ hy
    have hi : i < xs.length := by
      have := List.snd_lt_of_mem_zipIdx hy
      omega
    simp only [List.take_append_of_le_length (Nat.le_of_lt hi)]
  rw [overtaken, List.zipIdx_append, List.countP_append, hbefore, List.zipIdx_singleton,
    List.countP_singleton]
  simp

/-- The largest of the entries, when there is one. -/
def IsHighWater (xs : List α) : Option α → Prop
  | none => xs = []
  | some mark => mark ∈ xs ∧ ∀ y ∈ xs, y ≤ mark

/-- The mark tells whether a larger entry has come. -/
theorem IsHighWater.any {mark : Option α} (h : IsHighWater xs mark) (x : α) :
  mark.any (x < ·) = xs.any (x < ·)
  := by
  cases mark with
  | none =>
      obtain rfl : xs = [] := h
      rfl
  | some mark =>
      obtain ⟨hmem, hle⟩ := h
      rw [Option.any_some, Bool.eq_iff_iff, decide_eq_true_iff, List.any_eq_true]
      constructor
      · intro hlt
        use mark, hmem
        rw [decide_eq_true_iff]
        apply hlt
      · rintro ⟨y, hy, hlt⟩
        rw [decide_eq_true_iff] at hlt
        apply lt_of_lt_of_le hlt (hle y hy)

/-- The mark rises with the entries. -/
theorem IsHighWater.concat {mark : Option α} (h : IsHighWater xs mark) (x : α) :
  IsHighWater (xs ++ [x]) (if mark.all (· < x) then some x else mark)
  := by
  cases mark with
  | none =>
      obtain rfl : xs = [] := h
      constructor
      · apply List.mem_singleton_self
      · intro y hy
        rw [List.nil_append, List.mem_singleton] at hy
        rw [hy]
  | some mark =>
      obtain ⟨hmem, hle⟩ := h
      rw [Option.all_some]
      split_ifs with hlt
      · rw [decide_eq_true_iff] at hlt
        constructor
        · apply List.mem_append_right _ (List.mem_singleton_self x)
        · intro y hy
          rw [List.mem_append, List.mem_singleton] at hy
          rcases hy with hy | rfl
          · apply le_trans (hle y hy) hlt.le
          · apply le_rfl
      · rw [decide_eq_true_iff, not_lt] at hlt
        constructor
        · apply List.mem_append_left _ hmem
        · intro y hy
          rw [List.mem_append, List.mem_singleton] at hy
          rcases hy with hy | rfl
          · apply hle y hy
          · apply hlt

end Overtaken

end FirstArrivals
