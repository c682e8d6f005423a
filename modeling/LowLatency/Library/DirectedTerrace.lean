import Mathlib.Data.ZMod.Basic
import Mathlib.Data.Finset.Card

/-!
# Directed terraces

A sequence of all the elements of a finite commutative group whose successive differences are
distinct. Its translates form a row-complete Latin square: every element occurs once at every
position, and every ordered pair of distinct elements occurs once as neighbours.
-/

universe u

/-- The successive differences of a sequence. -/
def difference {G : Type u} [AddCommGroup G] (f : ℕ → G) (position : ℕ) : G :=
  f (position + 1) - f position

/-- The first `n` terms of `f` are all the elements of the group, and their successive
differences are distinct. -/
structure DirectedTerrace {G : Type u} [AddCommGroup G] [Fintype G] (f : ℕ → G) (n : ℕ) : Prop where
  card : Fintype.card G = n
  injOn : Set.InjOn f (Set.Iio n)
  differences : Set.InjOn (difference f) (Set.Iio (n - 1))

namespace DirectedTerrace

variable {G : Type u} [AddCommGroup G] {f : ℕ → G} {n : ℕ}

/-- Every element occurs once at every position of the translates. -/
theorem existsUnique_translate (f : ℕ → G) (position : ℕ) (a : G) :
  ∃! g, f position + g = a
  := by
  use a - f position
  constructor
  · apply add_sub_cancel
  · intro g hg
    rw [← hg, add_sub_cancel_left]

/-- Two elements are neighbours in a translate when their difference is the difference there. -/
theorem neighbours_iff {position : ℕ} {g a b : G} :
  (f position + g = a ∧ f (position + 1) + g = b) ↔
    difference f position = b - a ∧ f position + g = a
  := by
  constructor
  · rintro ⟨rfl, rfl⟩
    use (add_sub_add_right_eq_sub _ _ _).symm
  · rintro ⟨hdiff, rfl⟩
    use rfl
    rw [difference, sub_eq_sub_iff_add_eq_add] at hdiff
    rw [add_comm (f position) g, ← add_assoc] at hdiff
    apply add_right_cancel hdiff

variable [Fintype G]

/-- Neighbours are distinct. -/
theorem difference_ne_zero (h : DirectedTerrace f n) {position : ℕ} (hposition : position + 1 < n) :
  difference f position ≠ 0
  := by
  intro hzero
  have heq : f (position + 1) = f position := sub_eq_zero.mp hzero
  have := h.injOn (Set.mem_Iio.mpr hposition) (Set.mem_Iio.mpr (by omega)) heq
  omega

/-- Every element other than zero is a successive difference. -/
theorem exists_difference_eq (h : DirectedTerrace f n) {d : G} (hd : d ≠ 0) :
  ∃ position, position + 1 < n ∧ difference f position = d
  := by
  classical
  have hsubset : (Finset.range (n - 1)).image (difference f) ⊆ Finset.univ.erase 0 := by
    intro e he
    obtain ⟨position, hposition, rfl⟩ := Finset.mem_image.mp he
    rw [Finset.mem_range] at hposition
    apply Finset.mem_erase_of_ne_of_mem (h.difference_ne_zero (by omega)) (Finset.mem_univ _)
  have hinj : Set.InjOn (difference f) (Finset.range (n - 1)) := by
    rw [Finset.coe_range]
    apply h.differences
  have hcard : (Finset.univ.erase (0 : G)).card ≤
      ((Finset.range (n - 1)).image (difference f)).card := by
    rw [Finset.card_image_of_injOn hinj, Finset.card_range,
      Finset.card_erase_of_mem (Finset.mem_univ _), Finset.card_univ, h.card]
  have hmem : d ∈ (Finset.range (n - 1)).image (difference f) := by
    rw [Finset.eq_of_subset_of_card_le hsubset hcard]
    apply Finset.mem_erase_of_ne_of_mem hd (Finset.mem_univ d)
  obtain ⟨position, hposition, hdiff⟩ := Finset.mem_image.mp hmem
  rw [Finset.mem_range] at hposition
  use position
  constructor
  · omega
  · apply hdiff

/-- Every ordered pair of distinct elements occurs once as neighbours in the translates. -/
theorem existsUnique_neighbours (h : DirectedTerrace f n) {a b : G} (hab : a ≠ b) :
  ∃! x : G × ℕ, x.2 + 1 < n ∧ f x.2 + x.1 = a ∧ f (x.2 + 1) + x.1 = b
  := by
  obtain ⟨position, hposition, hdiff⟩ := h.exists_difference_eq (sub_ne_zero.mpr hab.symm)
  obtain ⟨g, hg, hunique⟩ := existsUnique_translate f position a
  use (g, position)
  constructor
  · use hposition
    apply neighbours_iff.mpr ⟨hdiff, hg⟩
  · rintro ⟨g', position'⟩ ⟨hposition', hneighbours⟩
    obtain ⟨hdiff', hg'⟩ := neighbours_iff.mp hneighbours
    have heq : position' = position := by
      apply h.differences (Set.mem_Iio.mpr (by omega)) (Set.mem_Iio.mpr (by omega))
      rw [hdiff, hdiff']
    subst heq
    rw [hunique g' hg']

end DirectedTerrace

/-- Any `n` consecutive numbers meet every residue once. -/
theorem ZMod.existsUnique_window {n : ℕ} [NeZero n] (start : ℕ) (g : ZMod n) :
  ∃! r : ℕ, start ≤ r ∧ r < start + n ∧ (r : ZMod n) = g
  := by
  use start + (g - (start : ZMod n)).val
  constructor
  · have hlt := ZMod.val_lt (g - (start : ZMod n))
    constructor
    · omega
    · constructor
      · omega
      · rw [Nat.cast_add, ZMod.natCast_zmod_val, add_sub_cancel]
  · rintro r ⟨hstart, hend, rfl⟩
    obtain ⟨k, rfl⟩ := Nat.exists_eq_add_of_le hstart
    rw [Nat.cast_add, add_sub_cancel_left, ZMod.val_cast_of_lt (by omega)]
