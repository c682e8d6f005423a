import Mathlib.Data.List.Perm.Subperm
import Mathlib.Data.List.Range
import Mathlib.Data.Nat.Notation

/-!
# Flags

A list of flags, raised one at a time and counted.
-/

namespace Flags

variable {flags : List Bool} {index : ℕ}

/-- A flag that is not raised is raised. -/
def raise (flags : List Bool) (index : ℕ) : List Bool :=
  flags.set index true

/-- A flag is raised; there is none outside the list. -/
def isRaised (flags : List Bool) (index : ℕ) : Bool :=
  flags.getD index false

@[simp]
theorem length_raise : (raise flags index).length = flags.length := List.length_set

theorem isRaised_raise_self (h : index < flags.length) :
  isRaised (raise flags index) index = true
  := by
  simp [isRaised, raise, h]

/-- A raised flag stays raised. -/
theorem isRaised_raise_of_isRaised {i : ℕ} (h : isRaised flags i = true) :
  isRaised (raise flags index) i = true
  := by
  simp only [isRaised, raise, List.getD_eq_getElem?_getD, List.getElem?_set] at h ⊢
  split_ifs with heq hlt
  · rfl
  · subst heq
    rw [List.getElem?_eq_none (by omega)] at h
    cases h
  · apply h

/-- Which flags are raised after one is. -/
theorem isRaised_raise {i : ℕ} (h : index < flags.length) :
  isRaised (raise flags index) i = true ↔ i = index ∨ isRaised flags i = true
  := by
  by_cases heq : i = index
  · subst heq
    simp only [isRaised_raise_self h, true_or]
  · have hne : index ≠ i := fun hi => heq hi.symm
    simp only [isRaised, raise, List.getD_eq_getElem?_getD, List.getElem?_set_ne hne, heq,
      false_or]

/-- Raising a flag counts one more. -/
theorem count_raise (hlt : index < flags.length) (h : isRaised flags index = false) :
  (raise flags index).count true = flags.count true + 1
  := by
  have hget : flags[index] = false := by simpa [isRaised, hlt] using h
  rw [raise, List.count_set hlt, hget]
  simp

/-- There are at least as many raised flags as distinct indices where they are raised. -/
theorem length_le_count {indices : List ℕ} (hnodup : indices.Nodup)
    (h : ∀ i ∈ indices, isRaised flags i = true) :
  indices.length ≤ flags.count true
  := by
  have hcount : flags.count true = ((List.range flags.length).filter (isRaised flags)).length := by
    have hmap : flags = (List.range flags.length).map (isRaised flags) := by
      apply List.ext_getElem
      · rw [List.length_map, List.length_range]
      · intro i hi hi'
        simp [isRaised, hi]
    conv_lhs => rw [hmap]
    rw [List.count, List.countP_map, List.countP_eq_length_filter]
    congr 1
    apply List.filter_congr
    intro i _
    simp
  rw [hcount]
  apply List.Subperm.length_le
  apply hnodup.subperm
  intro i hi
  rw [List.mem_filter, List.mem_range]
  have hraised := h i hi
  refine ⟨?_, hraised⟩
  by_contra hge
  simp [isRaised, List.getElem?_eq_none (Nat.le_of_not_lt hge)] at hraised

end Flags
