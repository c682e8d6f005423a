import Mathlib.Data.List.Sort
import Mathlib.Tactic.Common

/-!
# Order statistics

The values of a list in increasing order, and what the value at an index of that order says
about the list.
-/

universe u

namespace OrderStatistics

variable {α : Type u} [LE α] [DecidableLE α]

/-- The values in increasing order. -/
def sorted (xs : List α) : List α :=
  xs.mergeSort fun x y => decide (x ≤ y)

@[simp]
theorem length_sorted (xs : List α) : (sorted xs).length = xs.length := List.length_mergeSort xs

theorem perm_sorted (xs : List α) : (sorted xs).Perm xs := List.mergeSort_perm xs _

/-- At least `index + 1` of the values are at most `v`, and at least as many as come from
`index` on are at least `v`. -/
structure IsStatistic (xs : List α) (index : ℕ) (v : α) : Prop where
  atMost : index + 1 ≤ xs.countP (· ≤ v)
  atLeast : xs.length - index ≤ xs.countP (v ≤ ·)

section LinearOrder

variable [Std.IsLinearOrder α] {xs ys : List α} {i j : ℕ}

theorem pairwise_sorted (xs : List α) : (sorted xs).Pairwise (· ≤ ·) := by
  have h : (sorted xs).Pairwise fun x y => decide (x ≤ y) := by
    apply List.pairwise_mergeSort
    · intro a b c hab hbc
      rw [decide_eq_true_iff] at hab hbc ⊢
      apply Std.le_trans hab hbc
    · intro a b
      rw [Bool.or_eq_true, decide_eq_true_iff, decide_eq_true_iff]
      apply Std.le_total
  apply h.imp
  intro a b hab
  apply of_decide_eq_true hab

/-- The order of the values is lost. -/
theorem sorted_eq_of_perm (h : xs.Perm ys) : sorted xs = sorted ys := by
  apply List.Perm.eq_of_pairwise
  · intro a b _ _ hab hba
    apply Std.le_antisymm hab hba
  · apply pairwise_sorted
  · apply pairwise_sorted
  · apply (perm_sorted xs).trans
    apply h.trans (perm_sorted ys).symm

omit [DecidableLE α] in
/-- An increasing list increases from every index to every later one. -/
theorem getElem_le_getElem (hxs : xs.Pairwise (· ≤ ·)) (hij : i ≤ j) (hj : j < xs.length) :
  xs[i] ≤ xs[j]
  := by
  rcases Nat.eq_or_lt_of_le hij with heq | hlt
  · subst heq
    apply Std.le_refl
  · apply List.pairwise_iff_getElem.mp hxs i j _ hj hlt

/-- The value at an index of the increasing order. -/
theorem isStatistic_sorted (hi : i < (sorted xs).length) :
  IsStatistic xs i (sorted xs)[i]
  := by
  constructor
  · have hfront : ((sorted xs).take (i + 1)).countP (· ≤ (sorted xs)[i]) = i + 1 := by
      have hlength : ((sorted xs).take (i + 1)).length = i + 1 := List.length_take_of_le hi
      conv_rhs => rw [← hlength]
      rw [List.countP_eq_length]
      intro x hx
      obtain ⟨k, hk, rfl⟩ := List.getElem_of_mem hx
      rw [List.getElem_take, decide_eq_true_iff]
      apply getElem_le_getElem (pairwise_sorted xs)
      omega
    calc i + 1 = ((sorted xs).take (i + 1)).countP (· ≤ (sorted xs)[i]) := hfront.symm
      _ ≤ (sorted xs).countP (· ≤ (sorted xs)[i]) := (List.take_sublist _ _).countP_le
      _ = xs.countP (· ≤ (sorted xs)[i]) := (perm_sorted xs).countP_eq _
  · have hrest : ((sorted xs).drop i).countP ((sorted xs)[i] ≤ ·) = xs.length - i := by
      have hlength : ((sorted xs).drop i).length = xs.length - i := by
        rw [List.length_drop, length_sorted]
      rw [← hlength, List.countP_eq_length]
      intro x hx
      obtain ⟨k, hk, rfl⟩ := List.getElem_of_mem hx
      rw [List.getElem_drop, decide_eq_true_iff]
      apply getElem_le_getElem (pairwise_sorted xs)
      omega
    calc xs.length - i = ((sorted xs).drop i).countP ((sorted xs)[i] ≤ ·) := hrest.symm
      _ ≤ (sorted xs).countP ((sorted xs)[i] ≤ ·) := (List.drop_sublist _ _).countP_le
      _ = xs.countP ((sorted xs)[i] ≤ ·) := (perm_sorted xs).countP_eq _

omit [DecidableLE α] in
/-- Values picked at increasing indices of an increasing list are increasing. -/
theorem pairwise_of_indices {indices : List ℕ} {values : List α} (hxs : xs.Pairwise (· ≤ ·))
    (hindices : indices.Pairwise (· ≤ ·)) (h : values.map some = indices.map (xs[·]?)) :
  values.Pairwise (· ≤ ·)
  := by
  induction indices generalizing values with
  | nil =>
      rw [List.map_nil, List.map_eq_nil_iff] at h
      rw [h]
      apply List.Pairwise.nil
  | cons i indices ih =>
      cases values with
      | nil => cases h
      | cons v values =>
          rw [List.map_cons, List.map_cons, List.cons.injEq] at h
          obtain ⟨hv, hvalues⟩ := h
          rw [List.pairwise_cons] at hindices ⊢
          constructor
          · intro w hw
            have hmem : some w ∈ indices.map (xs[·]?) := by
              rw [← hvalues]
              apply List.mem_map_of_mem hw
            obtain ⟨j, hj, hjw⟩ := List.mem_map.mp hmem
            obtain ⟨hi, rfl⟩ := List.getElem?_eq_some_iff.mp hv.symm
            obtain ⟨hj', rfl⟩ := List.getElem?_eq_some_iff.mp hjw
            apply getElem_le_getElem hxs (hindices.1 j hj) hj'
          · apply ih hindices.2 hvalues

end LinearOrder

end OrderStatistics
