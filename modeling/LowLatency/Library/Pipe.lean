import Mathlib.Tactic.Common
import Mathlib.Data.List.Flatten
import Mathlib.Data.List.Range

/-!
# Pipes

A pipe carries a stream from a writer to a reader. The writer has written a prefix of the
stream and the reader has read a prefix of that; the pipe holds what lies between the two, in
order. So a reader can only read what comes next in the stream.

Often the stream is made of blocks of one size. Positions in the stream are then positions in
a block.
-/

universe u

namespace Pipe

variable {α : Type u}

/-- The queue holds the stream from `start` to `stop`: the reader has read what is before it, and
the writer has written it. -/
structure Carries (stream queue : List α) (stop start : ℕ) : Prop where
  start_le : start ≤ stop
  stop_le : stop ≤ stream.length
  queue : queue = (stream.take stop).drop start

variable {stream queue chunk : List α} {stop start count : ℕ}

theorem carries_nil (stream : List α) : Carries stream [] 0 0 := by
  constructor
  · apply le_rfl
  · apply Nat.zero_le
  · rfl

theorem Carries.length (h : Carries stream queue stop start) :
  queue.length = stop - start
  := by
  have hle := h.stop_le
  rw [h.queue, List.length_drop, List.length_take, Nat.min_eq_left hle]

/-- Nothing is queued exactly when all that is written is read. -/
theorem Carries.eq_nil_iff (h : Carries stream queue stop start) :
  queue = [] ↔ start = stop
  := by
  have hlength := h.length
  have hle := h.start_le
  rw [← List.length_eq_zero_iff]
  omega

/-- The writer writes a chunk which comes next in the stream. -/
theorem Carries.write (h : Carries stream queue stop start)
    (hchunk : chunk <+: stream.drop stop) :
  Carries stream (queue ++ chunk) (stop + chunk.length) start
  := by
  have hle := h.start_le
  have hlength := hchunk.length_le
  have hstop := h.stop_le
  rw [List.length_drop] at hlength
  constructor
  · omega
  · omega
  · rw [List.take_add, List.drop_append_of_le_length, h.queue,
      ← List.prefix_iff_eq_take.mp hchunk]
    rw [List.length_take]
    omega

/-- What the reader reads comes next in the stream. -/
theorem Carries.take_eq (h : Carries stream queue stop start) (hcount : count ≤ queue.length) :
  queue.take count = (stream.drop start).take count
  := by
  have hlength := h.length
  rw [h.queue, List.drop_take, List.take_take]
  congr 1
  omega

theorem Carries.read (h : Carries stream queue stop start) (hcount : count ≤ queue.length) :
  Carries stream (queue.drop count) stop (start + count)
  := by
  have hlength := h.length
  have hle := h.start_le
  constructor
  · omega
  · apply h.stop_le
  · rw [h.queue, List.drop_drop]

/-! ### Streams of blocks -/

/-- The stream of the first `n` blocks. -/
def blocks (block : ℕ → List α) (n : ℕ) : List α :=
  (List.range n).flatMap block

section Blocks

variable {block : ℕ → List α} {size n k offset : ℕ}

theorem blocks_succ (block : ℕ → List α) (n : ℕ) :
  blocks block (n + 1) = blocks block n ++ block n
  := by
  rw [blocks, List.range_succ, List.flatMap_append, List.flatMap_singleton, blocks]

theorem length_blocks (hsize : ∀ k, (block k).length = size) (n : ℕ) :
  (blocks block n).length = n * size
  := by
  induction n with
  | zero => rw [Nat.zero_mul]; rfl
  | succ n ih => rw [blocks_succ, List.length_append, ih, hsize, Nat.succ_mul]

/-- A block is found at its place in the stream. -/
theorem exists_drop_blocks (hsize : ∀ k, (block k).length = size) (hk : k < n) :
  ∃ rest, (blocks block n).drop (k * size) = block k ++ rest
  := by
  induction n with
  | zero => cases hk
  | succ n ih =>
      have hlength := length_blocks hsize n
      rw [blocks_succ]
      rcases Nat.lt_or_ge k n with hlt | hge
      · obtain ⟨rest, hrest⟩ := ih hlt
        have hle : k * size ≤ n * size := Nat.mul_le_mul_right size (Nat.le_of_lt hlt)
        use rest ++ block n
        rw [List.drop_append_of_le_length (by omega), hrest, List.append_assoc]
      · obtain rfl : k = n := by omega
        use []
        rw [List.drop_left' hlength, List.append_nil]

/-- What comes next within a block comes next in the stream. -/
theorem drop_prefix_blocks (hsize : ∀ k, (block k).length = size) (hk : k < n)
    (hoffset : offset ≤ size) :
  (block k).drop offset <+: (blocks block n).drop (k * size + offset)
  := by
  obtain ⟨rest, hrest⟩ := exists_drop_blocks hsize hk
  rw [← List.drop_drop, hrest, List.drop_append_of_le_length (by rw [hsize]; apply hoffset)]
  apply List.prefix_append

/-- As long as a reader stays within a block, what it reads comes next in the block. -/
theorem take_drop_blocks (hsize : ∀ k, (block k).length = size) (hk : k < n)
    (hcount : offset + count ≤ size) :
  ((blocks block n).drop (k * size + offset)).take count = ((block k).drop offset).take count
  := by
  obtain ⟨rest, hrest⟩ := exists_drop_blocks hsize hk
  have hlength := hsize k
  rw [← List.drop_drop, hrest, List.drop_append_of_le_length (by omega),
    List.take_append_of_le_length]
  rw [List.length_drop]
  omega

end Blocks

end Pipe
