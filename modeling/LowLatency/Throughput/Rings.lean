import LowLatency.Library.BoundedQueue

/-!
# The queues of the throughput benchmark

The two rings which the disruptor is compared with: one under a mutex, with indices modulo the
capacity and a size, and one for a single producer and a single consumer, with counters that
run freely and are masked. Used one attempt after another, each of them is a bounded queue.
-/

namespace Throughput

/-- A value of type `std::size_t` or `std::uint64_t`. -/
abbrev Word : Type := BitVec 64

def capacity : Word := 65536

/-- The subscript of a counter that runs freely. -/
theorem toNat_and_mask (n : ℕ) : (BitVec.ofNat 64 n &&& (capacity - 1)).toNat = n % 65536 := by
  have hmask : capacity - 1 = BitVec.ofNat 64 (2 ^ 16 - 1) := by decide
  rw [hmask]
  apply Wrapping.toNat_and_mask
  omega

/-! ### The ring under a mutex -/

structure MutexRing where
  values : ℕ → UInt64
  readIndex : Word
  writeIndex : Word
  size : Word

namespace MutexRing

def initial : MutexRing where
  values _ := 0
  readIndex := 0
  writeIndex := 0
  size := 0

def tryPush (ring : MutexRing) (value : UInt64) : Bool × MutexRing :=
  if ring.size = capacity then
    (false, ring)
  else
    (true,
      { ring with
        values := Function.update ring.values ring.writeIndex.toNat value
        writeIndex := (ring.writeIndex + 1) % capacity
        size := ring.size + 1 })

/-- Returns the value when the attempt succeeds. -/
def tryPop (ring : MutexRing) : Option UInt64 × MutexRing :=
  if ring.size = 0 then
    (none, ring)
  else
    (some (ring.values ring.readIndex.toNat),
      { ring with
        readIndex := (ring.readIndex + 1) % capacity
        size := ring.size - 1 })

/-- The ring stands for a queue. -/
structure Refines (ring : MutexRing) (queue : List UInt64) : Prop where
  size : ring.size = BitVec.ofNat 64 queue.length
  length_le : queue.length ≤ 65536
  readIndex_lt : ring.readIndex.toNat < 65536
  writeIndex : ring.writeIndex.toNat = (ring.readIndex.toNat + queue.length) % 65536
  holds : BoundedQueue.Holds 65536 ring.values ring.readIndex.toNat queue

variable {ring : MutexRing} {queue : List UInt64}

/-- The index after another one. -/
theorem toNat_next {index : Word} (h : index.toNat < 65536) :
  ((index + 1) % capacity).toNat = (index.toNat + 1) % 65536
  := by
  have hone : (1 : Word).toNat = 1 := rfl
  have hcapacity : capacity.toNat = 65536 := rfl
  rw [BitVec.toNat_umod, BitVec.toNat_add, hone, hcapacity, Nat.mod_eq_of_lt (b := 2 ^ 64)]
  omega

theorem Refines.size_eq_iff (h : ring.Refines queue) {n : ℕ} (hn : n ≤ 65536) :
  ring.size = BitVec.ofNat 64 n ↔ queue.length = n
  := by
  have hle := h.length_le
  constructor
  · intro hsize
    have htoNat := congrArg BitVec.toNat (h.size.symm.trans hsize)
    rw [BitVec.toNat_ofNat, BitVec.toNat_ofNat, Nat.mod_eq_of_lt (by omega),
      Nat.mod_eq_of_lt (by omega)] at htoNat
    apply htoNat
  · rintro rfl
    apply h.size

theorem Refines.tryPush (h : ring.Refines queue) (value : UInt64) :
  (ring.tryPush value).1 = (BoundedQueue.push 65536 queue value).1
    ∧ (ring.tryPush value).2.Refines (BoundedQueue.push 65536 queue value).2
  := by
  have hle := h.length_le
  have hfull : ring.size = capacity ↔ queue.length = 65536 := h.size_eq_iff le_rfl
  rw [MutexRing.tryPush, BoundedQueue.push]
  by_cases hroom : queue.length < 65536
  · have hsize : ring.size ≠ capacity := by
      intro hsize
      have hlength := hfull.mp hsize
      omega
    have hwrite : ring.writeIndex.toNat < 65536 := by
      rw [h.writeIndex]
      omega
    rw [if_neg hsize, if_pos hroom]
    refine ⟨rfl, ?_⟩
    constructor
    · simp only [h.size, List.length_append, List.length_singleton]
      apply Wrapping.ofNat_add
    · rw [List.length_append, List.length_singleton]
      omega
    · apply h.readIndex_lt
    · simp only [toNat_next hwrite, h.writeIndex, List.length_append, List.length_singleton]
      omega
    · simp only [h.writeIndex]
      apply h.holds.push hroom
  · rw [if_pos (hfull.mpr (by omega)), if_neg hroom]
    exact ⟨rfl, h⟩

theorem Refines.tryPop (h : ring.Refines queue) :
  ring.tryPop.1 = (BoundedQueue.pop queue).1 ∧ ring.tryPop.2.Refines (BoundedQueue.pop queue).2
  := by
  have hle := h.length_le
  have hempty : ring.size = 0 ↔ queue.length = 0 := h.size_eq_iff (Nat.zero_le 65536)
  rw [MutexRing.tryPop, BoundedQueue.pop]
  cases queue with
  | nil =>
      rw [if_pos (hempty.mpr rfl)]
      exact ⟨rfl, h⟩
  | cons value queue =>
      have hne : ring.size ≠ 0 := by
        intro hsize
        cases hempty.mp hsize
      have hread := h.readIndex_lt
      have hhead := h.holds.head
      rw [Nat.mod_eq_of_lt hread] at hhead
      rw [List.length_cons] at hle
      rw [if_neg hne, hhead]
      refine ⟨rfl, ?_⟩
      constructor
      · simp only [h.size, List.length_cons, List.tail_cons, ← Wrapping.ofNat_add]
        apply BitVec.add_sub_cancel
      · apply Nat.le_of_succ_le hle
      · simp only [toNat_next hread]
        omega
      · simp only [toNat_next hread, h.writeIndex, List.length_cons, List.tail_cons]
        omega
      · simp only [toNat_next hread, BoundedQueue.holds_mod]
        apply h.holds.pop

theorem refines_initial : initial.Refines [] := by
  constructor
  · rfl
  · apply Nat.zero_le
  · decide
  · rfl
  · apply BoundedQueue.holds_nil

/-- The ring as a queue. -/
def perform : Service MutexRing (QueueRequest UInt64) (QueueResponse UInt64) :=
  attempts MutexRing.tryPush MutexRing.tryPop

/-- The ring under a mutex is a bounded queue. -/
theorem responses_eq (requests : List (QueueRequest UInt64)) :
  Service.responses perform requests initial
    = Service.responses (BoundedQueue.perform 65536) requests []
  := by
  apply Service.responses_eq (R := Refines) _ requests refines_initial
  intro ring queue request h
  apply attempts_agree h.tryPush h.tryPop

end MutexRing

/-! ### The ring of a single producer and a single consumer -/

structure SpscRing where
  values : ℕ → UInt64
  read : Word
  write : Word

namespace SpscRing

def initial : SpscRing where
  values _ := 0
  read := 0
  write := 0

def tryPush (ring : SpscRing) (value : UInt64) : Bool × SpscRing :=
  let next := ring.write + 1
  if next - ring.read > capacity then
    (false, ring)
  else
    (true,
      { ring with
        values := Function.update ring.values (ring.write &&& (capacity - 1)).toNat value
        write := next })

/-- Returns the value when the attempt succeeds. -/
def tryPop (ring : SpscRing) : Option UInt64 × SpscRing :=
  if ring.read = ring.write then
    (none, ring)
  else
    (some (ring.values (ring.read &&& (capacity - 1)).toNat), { ring with read := ring.read + 1 })

/-- The ring stands for a queue, after `popped` values left it. -/
structure RefinesFrom (popped : ℕ) (ring : SpscRing) (queue : List UInt64) : Prop where
  read : ring.read = BitVec.ofNat 64 popped
  write : ring.write = BitVec.ofNat 64 (popped + queue.length)
  length_le : queue.length ≤ 65536
  holds : BoundedQueue.Holds 65536 ring.values popped queue

/-- The ring stands for a queue. -/
def Refines (ring : SpscRing) (queue : List UInt64) : Prop :=
  ∃ popped, RefinesFrom popped ring queue

variable {ring : SpscRing} {queue : List UInt64}

theorem Refines.tryPush (h : ring.Refines queue) (value : UInt64) :
  (ring.tryPush value).1 = (BoundedQueue.push 65536 queue value).1
    ∧ (ring.tryPush value).2.Refines (BoundedQueue.push 65536 queue value).2
  := by
  obtain ⟨popped, h⟩ := h
  have hle := h.length_le
  have hnext : ring.write + 1 = BitVec.ofNat 64 (popped + queue.length + 1) := by
    rw [h.write]
    apply Wrapping.ofNat_add
  have hdistance : (ring.write + 1 - ring.read).toNat = queue.length + 1 := by
    rw [hnext, h.read, Wrapping.toNat_sub_ofNat]
    · omega
    · omega
    · omega
  have hfull : ring.write + 1 - ring.read > capacity ↔ ¬queue.length < 65536 := by
    have hcapacity : capacity.toNat = 65536 := rfl
    rw [gt_iff_lt, BitVec.lt_def, hdistance, hcapacity]
    omega
  simp only [SpscRing.tryPush, BoundedQueue.push]
  by_cases hroom : queue.length < 65536
  · rw [if_neg (by rwa [hfull, not_not]), if_pos hroom]
    refine ⟨rfl, popped, ?_⟩
    constructor
    · apply h.read
    · simp only [hnext, List.length_append, List.length_singleton, Nat.add_assoc]
    · rw [List.length_append, List.length_singleton]
      omega
    · simp only [h.write, toNat_and_mask]
      apply h.holds.push hroom
  · rw [if_pos (hfull.mpr hroom), if_neg hroom]
    exact ⟨rfl, popped, h⟩

theorem Refines.tryPop (h : ring.Refines queue) :
  ring.tryPop.1 = (BoundedQueue.pop queue).1 ∧ ring.tryPop.2.Refines (BoundedQueue.pop queue).2
  := by
  obtain ⟨popped, h⟩ := h
  have hle := h.length_le
  rw [SpscRing.tryPop, BoundedQueue.pop]
  cases queue with
  | nil =>
      rw [if_pos (by rw [h.read, h.write, List.length_nil, Nat.add_zero])]
      exact ⟨rfl, popped, h⟩
  | cons value queue =>
      rw [List.length_cons] at hle
      have hne : ring.read ≠ ring.write := by
        intro heq
        have hdistance : (ring.write - ring.read).toNat = queue.length + 1 := by
          rw [h.write, h.read, Wrapping.toNat_sub_ofNat]
          · rw [List.length_cons]
            omega
          · omega
          · rw [List.length_cons]
            omega
        rw [heq, BitVec.sub_self] at hdistance
        cases hdistance
      rw [if_neg hne, h.read, toNat_and_mask, h.holds.head]
      refine ⟨rfl, popped + 1, ?_⟩
      constructor
      · apply Wrapping.ofNat_add
      · simp only [h.write, List.length_cons, List.tail_cons]
        congr 1
        omega
      · apply Nat.le_of_succ_le hle
      · apply h.holds.pop

theorem refines_initial : initial.Refines [] := by
  use 0
  constructor
  · rfl
  · rfl
  · apply Nat.zero_le
  · apply BoundedQueue.holds_nil

/-- The ring as a queue. -/
def perform : Service SpscRing (QueueRequest UInt64) (QueueResponse UInt64) :=
  attempts SpscRing.tryPush SpscRing.tryPop

/-- The ring with counters that run freely is a bounded queue. -/
theorem responses_eq (requests : List (QueueRequest UInt64)) :
  Service.responses perform requests initial
    = Service.responses (BoundedQueue.perform 65536) requests []
  := by
  apply Service.responses_eq (R := Refines) _ requests refines_initial
  intro ring queue request h
  apply attempts_agree h.tryPush h.tryPop

end SpscRing

end Throughput
