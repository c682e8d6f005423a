import Mathlib.Algebra.Group.Nat.Defs
import Mathlib.Data.Int.ModEq

/-!
# Wrapping arithmetic on words

A word of `w` bits stands for the naturals congruent to it modulo `2 ^ w`. The word of
the sum is the sum of the words; the difference of two words, read as a natural, is the
difference of the naturals they stand for as long as that lies below `2 ^ w`; masking
with `2 ^ k - 1` is the remainder modulo `2 ^ k`, which divides `2 ^ w`.

The operations on words agree with those on the naturals they stand for as long as what is
divided lies below a bound. Nothing is asked of sums and products; it is their word that wraps.
-/

universe u

namespace Wrapping

variable {w : ℕ}

/-- The sum of the words of two naturals is the word of their sum. -/
theorem ofNat_add (a b : ℕ) :
  BitVec.ofNat w a + BitVec.ofNat w b = BitVec.ofNat w (a + b)
  := by
  rw [BitVec.ofNat_add]

/-- The wrapping difference of the words of `a` and `b` is `a - b` when that is not
negative and fits in a word. -/
theorem toNat_sub_ofNat {a b : ℕ} (hle : b ≤ a) (hlt : a - b < 2 ^ w) :
  (BitVec.ofNat w a - BitVec.ofNat w b).toNat = a - b
  := by
  have h : BitVec.ofNat w a = BitVec.ofNat w b + BitVec.ofNat w (a - b) := by
    rw [ofNat_add]
    congr 1
    omega
  rw [h, BitVec.add_comm, BitVec.add_sub_cancel, BitVec.toNat_ofNat]
  apply Nat.mod_eq_of_lt hlt

/-- Masking the word of `a` with `2 ^ k - 1` leaves `a` modulo `2 ^ k`. -/
theorem toNat_and_mask {k : ℕ} (hk : k ≤ w) (a : ℕ) :
  (BitVec.ofNat w a &&& BitVec.ofNat w (2 ^ k - 1)).toNat = a % 2 ^ k
  := by
  have hpos : 0 < 2 ^ k := Nat.two_pow_pos k
  have hle : 2 ^ k ≤ 2 ^ w := Nat.pow_le_pow_right (by omega) hk
  have hmask : (2 ^ k - 1) % 2 ^ w = 2 ^ k - 1 := Nat.mod_eq_of_lt (by omega)
  rw [BitVec.toNat_and, BitVec.toNat_ofNat, BitVec.toNat_ofNat, hmask,
    Nat.and_two_pow_sub_one_eq_mod]
  apply Nat.mod_mod_of_dvd
  apply Nat.pow_dvd_pow 2 hk

/-- Two naturals less than `n` apart are not congruent modulo `n`. -/
theorem mod_ne_mod {a b n : ℕ} (hlt : a < b) (hb : b < a + n) :
  a % n ≠ b % n
  := by
  intro h
  have hdvd : n ∣ b - a := (Nat.modEq_iff_dvd' hlt.le).mp h
  have := Nat.le_of_dvd (by omega) hdvd
  omega

/-- A word is the word of the natural it is read as. -/
theorem ofNat_toNat (v : BitVec w) :
  BitVec.ofNat w v.toNat = v
  := by
  simp

/-! ### Counting loops -/

section CountingLoop

variable {σ : Type*} {bound index : BitVec w} (body : BitVec w → σ → σ) (s : σ)

theorem toNat_succ_of_lt (h : index < bound) : (index + 1).toNat = index.toNat + 1 := by
  have hindex : index.toNat < bound.toNat := h
  have hbound := bound.isLt
  have hone : (1 : BitVec w) = BitVec.ofNat w 1 := rfl
  rw [hone, BitVec.toNat_add, BitVec.toNat_ofNat, Nat.add_mod_mod]
  apply Nat.mod_eq_of_lt
  omega

/-- `for (; index < bound; ++index)`, whose body acts on a state. -/
def forLoop (bound : BitVec w) (body : BitVec w → σ → σ) (index : BitVec w) (s : σ) : σ :=
  if index < bound then forLoop bound body (index + 1) (body index s) else s
termination_by bound.toNat - index.toNat
decreasing_by
  rename_i h
  have hindex : index.toNat < bound.toNat := h
  rw [toNat_succ_of_lt h]
  omega

/-- The loop runs through the indices from the first one up to the bound. -/
theorem forLoop_eq :
  forLoop bound body index s
    = (List.range' index.toNat (bound.toNat - index.toNat)).foldl
        (fun s i => body (BitVec.ofNat w i) s) s
  := by
  fun_induction forLoop bound body index s with
  | case1 index s h ih =>
      have hindex : index.toNat < bound.toNat := h
      have hcount : bound.toNat - index.toNat = bound.toNat - (index.toNat + 1) + 1 := by omega
      rw [ih, toNat_succ_of_lt h, hcount, List.range'_succ, List.foldl_cons, ofNat_toNat]
  | case2 index s h =>
      have hindex : ¬index.toNat < bound.toNat := h
      have hcount : bound.toNat - index.toNat = 0 := by omega
      rw [hcount]
      rfl

theorem forLoop_zero :
  forLoop bound body 0 s
    = (List.range bound.toNat).foldl (fun s i => body (BitVec.ofNat w i) s) s
  := by
  have hzero : (0 : BitVec w).toNat = 0 := BitVec.toNat_zero
  rw [forLoop_eq, List.range_eq_range', hzero, Nat.sub_zero]

end CountingLoop

end Wrapping

/-! ### Arithmetic -/

/-- The operations on words of type `W` are those on the naturals, where a word is read below
`bound` only. -/
structure WordArithmetic {W : Type u} [Add W] [Sub W] [Mul W] [Div W] [Mod W] [OfNat W 1]
    (ofNat : ℕ → W) (bound : ℕ) : Prop where
  one : ofNat 1 = 1
  add : ∀ a b, ofNat a + ofNat b = ofNat (a + b)
  mul : ∀ a b, ofNat a * ofNat b = ofNat (a * b)
  sub : ∀ a b, b ≤ a → ofNat a - ofNat b = ofNat (a - b)
  div : ∀ a b, a < bound → b < bound → ofNat a / ofNat b = ofNat (a / b)
  mod : ∀ a b, a < bound → b < bound → ofNat a % ofNat b = ofNat (a % b)

namespace WordArithmetic

/-- Unsigned 64-bit words. -/
theorem uint64 : WordArithmetic UInt64.ofNat (2 ^ 64) := by
  constructor
  · rfl
  · intro a b
    apply (UInt64.ofNat_add a b).symm
  · intro a b
    apply (UInt64.ofNat_mul a b).symm
  · intro a b hle
    apply (UInt64.ofNat_sub hle).symm
  · intro a b ha hb
    apply (UInt64.ofNat_div ha hb).symm
  · intro a b ha hb
    apply (UInt64.ofNat_mod ha hb).symm

/-- Signed 32-bit words. -/
theorem int32 : WordArithmetic Int32.ofNat (2 ^ 31) := by
  constructor
  · rfl
  · intro a b
    apply (Int32.ofNat_add a b).symm
  · intro a b
    apply (Int32.ofNat_mul a b).symm
  · intro a b hle
    apply (Int32.ofNat_sub a b hle).symm
  · intro a b ha hb
    apply (Int32.ofNat_div ha hb).symm
  · intro a b ha hb
    apply (Int32.ofNat_mod ha hb).symm

end WordArithmetic
