import Mathlib.Tactic.Common
import LowLatency.Library.Wrapping

/-!
# The ring and its position arithmetic

The parameters of `single_producer_disruptor<Event, Capacity, ConsumerCount>` with what
its static assertions demand of them, and the three operations the class performs on
positions: advancing a position by a count, the distance between two positions, and the
slot of a position.

The class performs them on 64-bit words which wrap. The same operations on unbounded
natural positions agree with them on the words of these positions, as long as the
distances lie below `2 ^ 64`.

A count, a lag and an index are values of `std::size_t`, read here as naturals: every
subtraction the class makes on them is guarded by the comparison before it.
-/

namespace Disruptor

/-- The template parameters `Capacity` and `ConsumerCount`, with the static assertions of
the class. -/
structure Geometry where
  capacity : ℕ
  consumerCount : ℕ
  capacity_ne_zero : capacity > 0
  capacity_and_pred : capacity &&& (capacity - 1) = 0
  consumerCount_ne_zero : consumerCount > 0
  capacity_le_half : capacity ≤ (2 ^ 64 - 1) / 2

/-- The smallest ring two consumers share. -/
def Geometry.pair : Geometry where
  capacity := 2
  consumerCount := 2
  capacity_ne_zero := by decide
  capacity_and_pred := by decide
  consumerCount_ne_zero := by decide
  capacity_le_half := by decide

/-- The type `sequence_type`, which is `std::uint64_t`. -/
abbrev SequenceType : Type := BitVec 64

/-- The operations the class performs on positions of type `P`. -/
structure PositionArithmetic (P : Type) where
  /-- `position + static_cast<sequence_type>(count)` -/
  advance : P → ℕ → P
  /-- `static_cast<std::size_t>(later - earlier)` -/
  distance : P → P → ℕ
  /-- `static_cast<std::size_t>(position) & (Capacity - 1)` -/
  index : P → ℕ

namespace Geometry

variable (g : Geometry)

/-- The operations on 64-bit positions, which wrap. -/
def wrapping : PositionArithmetic SequenceType where
  advance p n := p + BitVec.ofNat 64 n
  distance p q := (p - q).toNat
  index p := (p &&& BitVec.ofNat 64 (g.capacity - 1)).toNat

/-- The operations on unbounded positions. -/
def unbounded : PositionArithmetic ℕ where
  advance p n := p + n
  distance p q := p - q
  index p := p % g.capacity

@[simp]
theorem unbounded_advance (p n : ℕ) :
  g.unbounded.advance p n = p + n
  := rfl

@[simp]
theorem unbounded_distance (p q : ℕ) :
  g.unbounded.distance p q = p - q
  := rfl

@[simp]
theorem unbounded_index (p : ℕ) :
  g.unbounded.index p = p % g.capacity
  := rfl

/-- The capacity is a power of two which divides `2 ^ 64`. -/
theorem capacity_eq_pow :
  ∃ k, k ≤ 64 ∧ g.capacity = 2 ^ k
  := by
  obtain ⟨k, hk⟩ := (Nat.and_sub_one_eq_zero_iff_isPowerOfTwo (by
    have := g.capacity_ne_zero
    omega)).mp g.capacity_and_pred
  use k
  constructor
  · have hle := g.capacity_le_half
    rw [hk] at hle
    by_contra hlt
    have := Nat.pow_le_pow_right (n := 2) (by omega) (Nat.le_of_not_le hlt)
    omega
  · apply hk

theorem capacity_lt :
  g.capacity < 2 ^ 64
  := by
  have := g.capacity_le_half
  omega

/-- Advancing the word of a position is the word of the position advanced. -/
theorem wrapping_advance (p n : ℕ) :
  g.wrapping.advance (BitVec.ofNat 64 p) n = BitVec.ofNat 64 (g.unbounded.advance p n)
  := Wrapping.ofNat_add p n

/-- The wrapping distance of the words of two positions is their distance, when the
first is the later one and they are less than `2 ^ 64` apart. -/
theorem wrapping_distance {p q : ℕ} (hle : q ≤ p) (hlt : p < q + 2 ^ 64) :
  g.wrapping.distance (BitVec.ofNat 64 p) (BitVec.ofNat 64 q) = g.unbounded.distance p q
  := Wrapping.toNat_sub_ofNat hle (by omega)

/-- The slot of the word of a position is the position modulo the capacity. -/
theorem wrapping_index (p : ℕ) :
  g.wrapping.index (BitVec.ofNat 64 p) = g.unbounded.index p
  := by
  obtain ⟨k, hk, hcapacity⟩ := g.capacity_eq_pow
  simp only [wrapping, unbounded, hcapacity]
  apply Wrapping.toNat_and_mask hk

theorem unbounded_index_lt (p : ℕ) :
  g.unbounded.index p < g.capacity
  := Nat.mod_lt p g.capacity_ne_zero

/-- The slot of a 64-bit position lies in the ring. -/
theorem wrapping_index_lt (p : SequenceType) :
  g.wrapping.index p < g.capacity
  := by
  rw [← Wrapping.ofNat_toNat p, wrapping_index]
  apply unbounded_index_lt

end Geometry

/-! ### The slots a batch visits -/

/-- The two ways in which the class walks over the slots of a batch. -/
inductive Traversal where
  /-- `event_at(first + index)` for every `index`, with the mask at each of them. -/
  | masked
  /-- `events[first_index + index]` up to the end of the array, and then
  `events[index - contiguous_count]` from its beginning. -/
  | twoSpan
  deriving DecidableEq, Repr

namespace Geometry

variable (g : Geometry) {P : Type} (A : PositionArithmetic P)

/-- The local `contiguous_count` of a two-span walk over `count` slots from `first`. -/
def contiguousCount (first : P) (count : ℕ) : ℕ :=
  if count < g.capacity - A.index first then count else g.capacity - A.index first

/-- The subscript of the slot at `index` in a walk over `count` slots from `first`. -/
def subscript (traversal : Traversal) (first : P) (count index : ℕ) : ℕ :=
  match traversal with
  | .masked => A.index (A.advance first index)
  | .twoSpan =>
      if index < g.contiguousCount A first count then A.index first + index
      else index - g.contiguousCount A first count

theorem contiguousCount_wrapping (first count : ℕ) :
  g.contiguousCount g.wrapping (BitVec.ofNat 64 first) count
    = g.contiguousCount g.unbounded first count
  := by
  rw [contiguousCount, contiguousCount, wrapping_index]

/-- The slots a walk visits do not depend on whether positions wrap. -/
theorem subscript_wrapping (traversal : Traversal) (first count index : ℕ) :
  g.subscript g.wrapping traversal (BitVec.ofNat 64 first) count index
    = g.subscript g.unbounded traversal first count index
  := by
  cases traversal with
  | masked => rw [subscript, subscript, wrapping_advance, wrapping_index]
  | twoSpan => rw [subscript, subscript, contiguousCount_wrapping, wrapping_index]

/-- Both walks visit the slot of the position `first + index` at `index`. -/
theorem subscript_unbounded (traversal : Traversal) (first : ℕ) {count index : ℕ}
    (hindex : index < count) (hcount : count ≤ g.capacity) :
  g.subscript g.unbounded traversal first count index = (first + index) % g.capacity
  := by
  cases traversal with
  | masked => rfl
  | twoSpan =>
      have hfirst := Nat.mod_lt first g.capacity_ne_zero
      have hmod : (first % g.capacity + index) % g.capacity
          = if first % g.capacity + index < g.capacity then first % g.capacity + index
            else first % g.capacity + index - g.capacity := by
        split_ifs with hspan
        · apply Nat.mod_eq_of_lt hspan
        · rw [Nat.mod_eq_sub_mod (by omega)]
          apply Nat.mod_eq_of_lt
          omega
      rw [← Nat.mod_add_mod, hmod, subscript, contiguousCount, unbounded_index]
      split_ifs
      all_goals omega

end Geometry

end Disruptor
