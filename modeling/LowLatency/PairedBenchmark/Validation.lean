import Mathlib.Algebra.BigOperators.Intervals
import Mathlib.Data.UInt

/-!
# Validation of the events of a phase

The handler of the paired benchmark counts the events, sums them and gathers the bits in which
a value or a sequence differs from the one expected. The values of a phase are `0, 1, 2, …`, so
their sum is triangular.
-/

namespace PairedBenchmark

/-- What the handler gathers. -/
structure Validation where
  consumed : UInt64
  checksum : UInt64
  orderValueMismatch : UInt64
  deriving DecidableEq

namespace Validation

def initial : Validation where
  consumed := 0
  checksum := 0
  orderValueMismatch := 0

/-- The handler. -/
def handle (v : Validation) (firstSequence value sequence : UInt64) : Validation :=
  let expected := v.consumed
  { consumed := v.consumed + 1
    checksum := v.checksum + value
    orderValueMismatch := v.orderValueMismatch |||
      ((value ^^^ expected) ||| (sequence ^^^ (firstSequence + expected))) }

end Validation

/-- The sum of `0, …, count - 1`, divided before it is multiplied. -/
def expectedChecksum (count : UInt64) : UInt64 :=
  if count &&& 1 = 0 then (count / 2) * (count - 1) else count * ((count - 1) / 2)

/-! ### Triangular sums -/

/-- The sum of the values `0, …, n - 1`. -/
def triangle (n : ℕ) : ℕ := ∑ i ∈ Finset.range n, i

theorem triangle_succ (n : ℕ) : triangle (n + 1) = triangle n + n := Finset.sum_range_succ _ n

/-- Half of one of two neighbours times the other. -/
theorem triangle_eq (n : ℕ) :
  triangle n = if n % 2 = 0 then (n / 2) * (n - 1) else n * ((n - 1) / 2)
  := by
  have htwo : triangle n * 2 = n * (n - 1) := Finset.sum_range_id_mul_two n
  split_ifs with heven
  · obtain ⟨half, rfl⟩ : 2 ∣ n := Nat.dvd_of_mod_eq_zero heven
    rw [Nat.mul_div_cancel_left half Nat.zero_lt_two]
    rw [Nat.mul_comm 2 half, Nat.mul_right_comm] at htwo
    rw [Nat.mul_comm 2 half]
    apply Nat.eq_of_mul_eq_mul_right Nat.zero_lt_two htwo
  · obtain ⟨half, rfl⟩ : ∃ half, n = 2 * half + 1 := ⟨n / 2, by omega⟩
    rw [Nat.add_sub_cancel, Nat.mul_div_cancel_left half Nat.zero_lt_two]
    rw [Nat.add_sub_cancel, Nat.mul_left_comm, Nat.mul_comm 2 (_ * half)] at htwo
    apply Nat.eq_of_mul_eq_mul_right Nat.zero_lt_two htwo

/-- The expected checksum is the triangular sum modulo `2 ^ 64`. -/
theorem expectedChecksum_eq (count : UInt64) :
  expectedChecksum count = UInt64.ofNat (triangle count.toNat)
  := by
  have hparity : count &&& 1 = 0 ↔ count.toNat % 2 = 0 := by
    rw [← UInt64.toNat_inj, UInt64.toNat_and]
    change count.toNat &&& 1 = 0 ↔ _
    rw [Nat.and_one_is_mod]
  by_cases hzero : count = 0
  · subst hzero
    rfl
  · have hle : 1 ≤ count := by
      rw [UInt64.le_iff_toNat_le]
      apply Nat.pos_of_ne_zero
      intro h
      apply hzero (UInt64.toNat_inj.mp h)
    have hpred : (count - 1).toNat = count.toNat - 1 := UInt64.toNat_sub_of_le count 1 hle
    rw [← UInt64.toNat_inj, UInt64.toNat_ofNat', triangle_eq, expectedChecksum]
    by_cases heven : count.toNat % 2 = 0
    · rw [if_pos (hparity.mpr heven), if_pos heven, UInt64.toNat_mul, UInt64.toNat_div, hpred]
      rfl
    · rw [if_neg (mt hparity.mp heven), if_neg heven, UInt64.toNat_mul, UInt64.toNat_div, hpred]
      rfl

/-! ### Exact validations -/

/-- A validation of the values `0, …, n - 1` in order. -/
structure Validation.Exact (n : ℕ) (v : Validation) : Prop where
  consumed : v.consumed = UInt64.ofNat n
  checksum : v.checksum = UInt64.ofNat (triangle n)
  orderValueMismatch : v.orderValueMismatch = 0

theorem Validation.exact_initial : Validation.initial.Exact 0 := by
  constructor <;> rfl

/-- The handler keeps a validation exact on the next event. -/
theorem Validation.Exact.handle {n : ℕ} {v : Validation} (h : v.Exact n)
    (firstSequence : UInt64) :
  (v.handle firstSequence (UInt64.ofNat n) (firstSequence + UInt64.ofNat n)).Exact (n + 1)
  := by
  constructor
  · rw [Validation.handle, h.consumed, UInt64.ofNat_add]
    rfl
  · rw [Validation.handle, h.checksum, triangle_succ, UInt64.ofNat_add]
  · rw [Validation.handle, h.consumed, h.orderValueMismatch]
    simp

end PairedBenchmark
