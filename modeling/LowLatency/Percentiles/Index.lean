import LowLatency.Library.Wrapping
import Mathlib.Tactic.Common

/-!
# The index of a percentile

The index of a fraction in an increasing list is the fraction of its last index, rounded down.
The paired benchmarks compute it by a formula which splits the last index, the socket benchmark
directly; each of them on its own words.
-/

namespace Percentiles

/-- A fraction of at most one, in thousandths or coarser. -/
structure Fraction where
  numerator : ℕ
  denominator : ℕ
  denominator_pos : 0 < denominator
  denominator_le : denominator ≤ 1000
  numerator_le : numerator ≤ denominator

/-- A fraction in hundredths. -/
def Fraction.hundredths (numerator : ℕ) (h : numerator ≤ 100) : Fraction where
  numerator := numerator
  denominator := 100
  denominator_pos := by decide
  denominator_le := by decide
  numerator_le := h

def p50 : Fraction := .hundredths 50 (by decide)

def p90 : Fraction := .hundredths 90 (by decide)

def p95 : Fraction := .hundredths 95 (by decide)

def p99 : Fraction := .hundredths 99 (by decide)

def p999 : Fraction where
  numerator := 999
  denominator := 1000
  denominator_pos := by decide
  denominator_le := by decide
  numerator_le := by decide

/-- The fractions which the benchmarks report. -/
def reported : List Fraction := [p50, p90, p95, p99, p999]

/-- The index of a fraction over unbounded integers. -/
def exactIndex (size : ℕ) (f : Fraction) : ℕ :=
  (size - 1) * f.numerator / f.denominator

/-- The formula of `percentile_index` on words of type `W`. -/
def splitIndex {W : Type} [Add W] [Sub W] [Mul W] [Div W] [Mod W] [OfNat W 1]
    (count numerator denominator : W) : W :=
  let last := count - 1
  (last / denominator) * numerator + ((last % denominator) * numerator) / denominator

/-- The values which `percentile_index` computes, over unbounded integers. -/
def splitIntermediates (size : ℕ) (f : Fraction) : List ℕ :=
  let last := size - 1
  [last, last / f.denominator, (last / f.denominator) * f.numerator, last % f.denominator,
    (last % f.denominator) * f.numerator, ((last % f.denominator) * f.numerator) / f.denominator,
    splitIndex size f.numerator f.denominator]

variable {size : ℕ} (f : Fraction)

/-- The fraction of a multiple of the denominator needs no rounding. -/
theorem splitIndex_eq (size : ℕ) :
  splitIndex size f.numerator f.denominator = exactIndex size f
  := by
  have hlast := Nat.div_add_mod (size - 1) f.denominator
  rw [splitIndex, exactIndex]
  conv_rhs => rw [← hlast, Nat.add_mul, Nat.mul_assoc, Nat.mul_add_div f.denominator_pos]

theorem exactIndex_le (size : ℕ) : exactIndex size f ≤ size - 1 := by
  rw [exactIndex]
  apply Nat.div_le_of_le_mul
  rw [Nat.mul_comm f.denominator]
  apply Nat.mul_le_mul_left _ f.numerator_le

theorem exactIndex_lt (hsize : 0 < size) : exactIndex size f < size := by
  have := exactIndex_le f size
  omega

/-- A greater fraction has a greater index. -/
theorem exactIndex_mono {f g : Fraction} (size : ℕ)
    (h : f.numerator * g.denominator ≤ g.numerator * f.denominator) :
  exactIndex size f ≤ exactIndex size g
  := by
  rw [exactIndex, exactIndex, Nat.le_div_iff_mul_le g.denominator_pos]
  apply Nat.le_of_mul_le_mul_right _ f.denominator_pos
  calc (size - 1) * f.numerator / f.denominator * g.denominator * f.denominator
      = (size - 1) * f.numerator / f.denominator * f.denominator * g.denominator :=
        Nat.mul_right_comm _ _ _
    _ ≤ (size - 1) * f.numerator * g.denominator :=
        Nat.mul_le_mul_right _ (Nat.div_mul_le_self _ _)
    _ = (size - 1) * (f.numerator * g.denominator) := Nat.mul_assoc _ _ _
    _ ≤ (size - 1) * (g.numerator * f.denominator) := Nat.mul_le_mul_left _ h
    _ = (size - 1) * g.numerator * f.denominator := (Nat.mul_assoc _ _ _).symm

/-- What a remainder is multiplied to lies below a million. -/
theorem mod_mul_lt (last : ℕ) : (last % f.denominator) * f.numerator < 1000 * 1000 := by
  have hmod := Nat.mod_lt last f.denominator_pos
  have hle := f.denominator_le
  have hnumerator := f.numerator_le
  calc (last % f.denominator) * f.numerator ≤ (last % f.denominator) * 1000 :=
        Nat.mul_le_mul_left _ (by omega)
    _ < 1000 * 1000 := by omega

/-- No value of the formula reaches a bound that the size and a million stay below. -/
theorem splitIntermediates_lt {bound : ℕ} (hsize : 0 < size) (hlt : size ≤ bound)
    (hbound : 1000 * 1000 ≤ bound) :
  ∀ x ∈ splitIntermediates size f, x < bound
  := by
  have hquotient : (size - 1) / f.denominator ≤ size - 1 := Nat.div_le_self _ _
  have hmultiple : (size - 1) / f.denominator * f.numerator ≤ size - 1 :=
    Nat.le_trans (Nat.mul_le_mul_left _ f.numerator_le) (Nat.div_mul_le_self _ _)
  have hremainder : (size - 1) % f.denominator ≤ size - 1 := Nat.mod_le _ _
  have hproduct := mod_mul_lt f (size - 1)
  have hshare := Nat.div_le_self ((size - 1) % f.denominator * f.numerator) f.denominator
  have hindex := exactIndex_lt f hsize
  intro x hx
  simp only [splitIntermediates, splitIndex_eq, List.mem_cons, List.not_mem_nil, or_false] at hx
  rcases hx with rfl | rfl | rfl | rfl | rfl | rfl | rfl
  all_goals omega

/-- The formula on words is the formula on the naturals. -/
theorem splitIndex_ofNat {W : Type} [Add W] [Sub W] [Mul W] [Div W] [Mod W] [OfNat W 1]
    {ofNat : ℕ → W} {bound : ℕ} (words : WordArithmetic ofNat bound) (hsize : 0 < size)
    (hlt : size < bound) (hbound : 1000 * 1000 ≤ bound) :
  splitIndex (ofNat size) (ofNat f.numerator) (ofNat f.denominator) = ofNat (exactIndex size f)
  := by
  have hle := f.denominator_le
  have hlast : size - 1 < bound := by omega
  have hdenominator : f.denominator < bound := by omega
  have hproduct : (size - 1) % f.denominator * f.numerator < bound :=
    Nat.lt_of_lt_of_le (mod_mul_lt f (size - 1)) hbound
  rw [← splitIndex_eq, splitIndex, splitIndex, ← words.one, words.sub _ _ hsize,
    words.div _ _ hlast hdenominator, words.mod _ _ hlast hdenominator, words.mul, words.mul,
    words.div _ _ hproduct hdenominator, words.add]

end Percentiles

/-! ### The benchmarks -/

namespace PairedLatency

def percentileIndex (count numerator denominator : UInt64) : UInt64 :=
  Percentiles.splitIndex count numerator denominator

namespace Java

def percentileIndex (count numerator denominator : Int32) : Int32 :=
  Percentiles.splitIndex count numerator denominator

end Java

end PairedLatency

namespace SocketLatency

/-- The index which `percentile` reads at. -/
def percentileIndex (size numerator denominator : UInt64) : UInt64 :=
  (size - 1) * numerator / denominator

end SocketLatency

namespace Percentiles

variable {size : ℕ} (f : Fraction)

theorem toNat_percentileIndex (hsize : 0 < size) (hlt : size < 2 ^ 64) :
  (PairedLatency.percentileIndex (UInt64.ofNat size) (UInt64.ofNat f.numerator)
    (UInt64.ofNat f.denominator)).toNat = exactIndex size f
  := by
  have hindex := exactIndex_lt f hsize
  rw [PairedLatency.percentileIndex, splitIndex_ofNat f WordArithmetic.uint64 hsize hlt (by decide),
    UInt64.toNat_ofNat']
  apply Nat.mod_eq_of_lt
  omega

theorem toInt_percentileIndex (hsize : 0 < size) (hlt : size < 2 ^ 31) :
  (PairedLatency.Java.percentileIndex (Int32.ofNat size) (Int32.ofNat f.numerator)
    (Int32.ofNat f.denominator)).toInt = exactIndex size f
  := by
  have hindex := exactIndex_lt f hsize
  rw [PairedLatency.Java.percentileIndex,
    splitIndex_ofNat f WordArithmetic.int32 hsize hlt (by decide)]
  apply Int32.toInt_ofNat_of_lt
  omega

/-- The product of the direct formula stays below `2 ^ 64` up to sizes of 32 bits. -/
theorem directProduct_lt (hlt : size < 2 ^ 32) : (size - 1) * f.numerator < 2 ^ 64 := by
  have hle := f.denominator_le
  have hnumerator := f.numerator_le
  calc (size - 1) * f.numerator ≤ (size - 1) * 1000 := Nat.mul_le_mul_left _ (by omega)
    _ < 2 ^ 64 := by omega

theorem toNat_socketPercentileIndex (hsize : 0 < size) (hlt : size < 2 ^ 32) :
  (SocketLatency.percentileIndex (UInt64.ofNat size) (UInt64.ofNat f.numerator)
    (UInt64.ofNat f.denominator)).toNat = exactIndex size f
  := by
  have words := WordArithmetic.uint64
  have hle := f.denominator_le
  have hindex := exactIndex_lt f hsize
  rw [SocketLatency.percentileIndex, ← words.one, words.sub _ _ hsize, words.mul,
    words.div _ _ (directProduct_lt f hlt) (by omega), UInt64.toNat_ofNat', exactIndex]
  apply Nat.mod_eq_of_lt
  rw [exactIndex] at hindex
  omega

end Percentiles
