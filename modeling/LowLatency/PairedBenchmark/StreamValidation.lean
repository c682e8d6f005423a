import LowLatency.PairedBenchmark.Phases

/-!
# Validation of the stream of a phase

The handler over all events of a phase. It accepts exactly the stream in which the values count
up from zero and the sequences from the first one, and nothing that follows an event out of
sequence clears what it has recorded. The Java benchmark has the same handler on signed words.
-/

namespace PairedBenchmark

variable {firstSequence : UInt64} {events : List (UInt64 × UInt64)}

namespace Validation

/-- The handler over events in the order in which it is called on them. -/
def run (v : Validation) (firstSequence : UInt64) (events : List (UInt64 × UInt64)) : Validation :=
  events.foldl (fun v event => v.handle firstSequence event.1 event.2) v

end Validation

/-- The events of a phase: the value `i` with the sequence `firstSequence + i` at `i`. -/
def InSequence (firstSequence : UInt64) (events : List (UInt64 × UInt64)) : Prop :=
  ∀ (i : ℕ) (hi : i < events.length),
    events[i] = (UInt64.ofNat i, firstSequence + UInt64.ofNat i)

theorem inSequence_concat (event : UInt64 × UInt64) :
  InSequence firstSequence (events ++ [event])
    ↔ InSequence firstSequence events
      ∧ event = (UInt64.ofNat events.length, firstSequence + UInt64.ofNat events.length)
  := by
  constructor
  · intro h
    constructor
    · intro i hi
      have hevent := h i (by rw [List.length_append]; omega)
      rw [List.getElem_append_left hi] at hevent
      apply hevent
    · have hevent := h events.length (by simp)
      rw [List.getElem_concat_length rfl] at hevent
      apply hevent
  · rintro ⟨h, hevent⟩ i hi
    rcases Nat.lt_or_ge i events.length with hlt | hge
    · rw [List.getElem_append_left hlt]
      apply h i hlt
    · obtain rfl : i = events.length := by
        rw [List.length_append, List.length_singleton] at hi
        omega
      rw [List.getElem_concat_length rfl]
      apply hevent

namespace Validation

variable {v : Validation}

theorem run_append (before after : List (UInt64 × UInt64)) :
  v.run firstSequence (before ++ after)
    = (v.run firstSequence before).run firstSequence after
  := List.foldl_append

/-- The events are counted whatever they are. -/
theorem consumed_run (firstSequence : UInt64) (events : List (UInt64 × UInt64)) :
  (initial.run firstSequence events).consumed = UInt64.ofNat events.length
  := by
  induction events using List.reverseRecOn with
  | nil => rfl
  | append_singleton events event ih =>
      rw [run_append, List.length_append, UInt64.ofNat_add, ← ih]
      rfl

/-- No bit of the mismatch is cleared by an event, and none is set exactly by the one
expected. -/
theorem orderValueMismatch_handle (value sequence : UInt64) :
  (v.handle firstSequence value sequence).orderValueMismatch = 0
    ↔ v.orderValueMismatch = 0 ∧ (value, sequence) = (v.consumed, firstSequence + v.consumed)
  := by
  rw [handle, UInt64.or_eq_zero_iff, UInt64.or_eq_zero_iff, UInt64.xor_eq_zero_iff,
    UInt64.xor_eq_zero_iff, Prod.mk.injEq]

theorem orderValueMismatch_run :
  (initial.run firstSequence events).orderValueMismatch = 0 ↔ InSequence firstSequence events
  := by
  induction events using List.reverseRecOn with
  | nil =>
      constructor
      · intro _ i hi
        cases hi
      · intro _
        rfl
  | append_singleton events event ih =>
      rw [run_append, inSequence_concat, ← ih, ← consumed_run firstSequence events]
      apply orderValueMismatch_handle

/-- What is recorded stays. -/
theorem orderValueMismatch_of_run (h : (v.run firstSequence events).orderValueMismatch = 0) :
  v.orderValueMismatch = 0
  := by
  induction events generalizing v with
  | nil => apply h
  | cons event events ih => apply (orderValueMismatch_handle event.1 event.2).mp (ih h) |>.1

/-- A stream in sequence leaves an exact validation. -/
theorem exact_run (h : InSequence firstSequence events) :
  (initial.run firstSequence events).Exact events.length
  := by
  induction events using List.reverseRecOn with
  | nil => apply exact_initial
  | append_singleton events event ih =>
      obtain ⟨hevents, rfl⟩ := (inSequence_concat event).mp h
      rw [run_append, List.length_append]
      apply (ih hevents).handle firstSequence

end Validation

/-! ### The Java benchmark -/

namespace Java

/-- The fields of the handler which it validates with. -/
structure ValidationHandler where
  firstSequence : Int64
  consumed : Int64
  checksum : Int64
  orderValueMismatch : Int64

namespace ValidationHandler

def prepare (phaseFirstSequence : Int64) : ValidationHandler where
  firstSequence := phaseFirstSequence
  consumed := 0
  checksum := 0
  orderValueMismatch := 0

def onEvent (h : ValidationHandler) (value sequence : Int64) : ValidationHandler :=
  let expected := h.consumed
  { firstSequence := h.firstSequence
    orderValueMismatch := h.orderValueMismatch |||
      ((value ^^^ expected) ||| (sequence ^^^ (h.firstSequence + expected)))
    checksum := h.checksum + value
    consumed := expected + 1 }

/-- The handler over events in the order in which it is called on them. -/
def run (h : ValidationHandler) (events : List (Int64 × Int64)) : ValidationHandler :=
  events.foldl (fun h event => h.onEvent event.1 event.2) h

/-- What the handler has gathered, as unsigned words. -/
def toValidation (h : ValidationHandler) : Validation where
  consumed := h.consumed.toUInt64
  checksum := h.checksum.toUInt64
  orderValueMismatch := h.orderValueMismatch.toUInt64

theorem toValidation_onEvent (h : ValidationHandler) (value sequence : Int64) :
  (h.onEvent value sequence).toValidation
    = h.toValidation.handle h.firstSequence.toUInt64 value.toUInt64 sequence.toUInt64
  := rfl

/-- Both handlers gather the same bits. -/
theorem toValidation_run (h : ValidationHandler) (events : List (Int64 × Int64)) :
  (h.run events).toValidation
    = h.toValidation.run h.firstSequence.toUInt64
        (events.map fun event => (event.1.toUInt64, event.2.toUInt64))
  := by
  induction events generalizing h with
  | nil => rfl
  | cons event events ih =>
      have hrest := ih (h.onEvent event.1 event.2)
      rw [toValidation_onEvent] at hrest
      apply hrest

end ValidationHandler

def expectedChecksum (count : Int64) : Int64 :=
  if count &&& 1 = 0 then (count / 2) * (count - 1) else count * ((count - 1) / 2)

/-- Signed and unsigned halves of a word agree below `2 ^ 63`. -/
theorem toUInt64_half {count : UInt64} (h : count.toNat < 2 ^ 63) :
  (count.toInt64 / 2).toUInt64 = count / 2
  := by
  have hmsb : count.toBitVec.msb = false := by
    rw [BitVec.msb_eq_false_iff_two_mul_lt]
    have : count.toBitVec.toNat = count.toNat := rfl
    omega
  rw [← UInt64.toBitVec_inj]
  change count.toBitVec.sdiv 2#64 = count.toBitVec / 2#64
  rw [BitVec.sdiv_eq, hmsb]
  rfl

/-- Both benchmarks expect the same checksum. -/
theorem toUInt64_expectedChecksum {count : UInt64} (h : count.toNat < 2 ^ 63) :
  (expectedChecksum count.toInt64).toUInt64 = PairedBenchmark.expectedChecksum count
  := by
  have hparity : count.toInt64 &&& 1 = 0 ↔ count &&& 1 = 0 := by
    constructor
    · intro hzero
      apply congrArg Int64.toUInt64 hzero
    · intro hzero
      apply congrArg UInt64.toInt64 hzero
  have hmul (a b : Int64) : (a * b).toUInt64 = a.toUInt64 * b.toUInt64 := rfl
  rw [expectedChecksum, PairedBenchmark.expectedChecksum]
  by_cases hone : count &&& 1 = 0
  · rw [if_pos hone, if_pos (hparity.mpr hone), hmul, toUInt64_half h]
    rfl
  · have hpred : (count - 1).toNat < 2 ^ 63 := by
      have hne : count ≠ 0 := by
        rintro rfl
        apply hone rfl
      have hle : 1 ≤ count := by
        rw [UInt64.le_iff_toNat_le]
        apply Nat.pos_of_ne_zero
        intro hzero
        apply hne (UInt64.toNat_inj.mp hzero)
      rw [UInt64.toNat_sub_of_le count 1 hle]
      omega
    rw [if_neg hone, if_neg (mt hparity.mp hone), hmul]
    change count * ((count - 1).toInt64 / 2).toUInt64 = _
    rw [toUInt64_half hpred]

end Java

/-! ### The stream of a phase -/

/-- The most events a run may have. -/
def maximumEventCount : UInt64 := 9223372036854775807

/-- The validation of a stream is exact. It counts the events; it records nothing exactly when
they are in sequence, and what it has recorded stays; the checksum is then the expected one,
which is the triangular sum for every count. The Java benchmark gathers the same bits, and it
expects the same checksum for every count that both accept. -/
theorem streamValidation_exact (firstSequence : UInt64) (events : List (UInt64 × UInt64))
    (hlength : events.length < 2 ^ 64) :
  (Validation.initial.run firstSequence events).consumed.toNat = events.length
    ∧ ((Validation.initial.run firstSequence events).orderValueMismatch = 0
        ↔ InSequence firstSequence events)
    ∧ (∀ before after, events = before ++ after → ¬InSequence firstSequence before →
        (Validation.initial.run firstSequence events).orderValueMismatch ≠ 0)
    ∧ ((Validation.initial.run firstSequence events).orderValueMismatch = 0 →
        (Validation.initial.run firstSequence events).checksum
          = expectedChecksum (UInt64.ofNat events.length))
    ∧ (∀ count : UInt64,
        expectedChecksum count = UInt64.ofNat (∑ i ∈ Finset.range count.toNat, i))
    ∧ ((Java.ValidationHandler.prepare firstSequence.toInt64).run
          (events.map fun event => (event.1.toInt64, event.2.toInt64))).toValidation
        = Validation.initial.run firstSequence events
    ∧ ∀ count : UInt64, count ≤ maximumEventCount →
        (Java.expectedChecksum count.toInt64).toUInt64 = expectedChecksum count
  := by
  refine ⟨?_, Validation.orderValueMismatch_run, ?_, ?_, expectedChecksum_eq, ?_, ?_⟩
  · rw [Validation.consumed_run, UInt64.toNat_ofNat']
    apply Nat.mod_eq_of_lt hlength
  · rintro before after rfl hbefore hzero
    rw [Validation.run_append] at hzero
    apply hbefore
    rw [← Validation.orderValueMismatch_run]
    apply Validation.orderValueMismatch_of_run hzero
  · intro hzero
    have hexact := Validation.exact_run (Validation.orderValueMismatch_run.mp hzero)
    rw [hexact.checksum, expectedChecksum_eq, UInt64.toNat_ofNat', Nat.mod_eq_of_lt hlength]
  · rw [Java.ValidationHandler.toValidation_run, List.map_map]
    have hevents (event : UInt64 × UInt64) :
        (event.1.toInt64.toUInt64, event.2.toInt64.toUInt64) = event := rfl
    simp only [Function.comp_def, hevents, List.map_id']
    rfl
  · intro count hcount
    rw [UInt64.le_iff_toNat_le] at hcount
    have hmaximum : maximumEventCount.toNat = 9223372036854775807 := rfl
    apply Java.toUInt64_expectedChecksum
    omega

/-- A stream whose sequences wrap. -/
theorem streamValidation_exact_acrossWrap :
  (Validation.initial.run 18446744073709551615
      [(0, 18446744073709551615), (1, 0)]).consumed.toNat = 2
    ∧ (Validation.initial.run 18446744073709551615
      [(0, 18446744073709551615), (1, 0)]).orderValueMismatch = 0
  := by
  obtain ⟨hconsumed, hmismatch, -⟩ := streamValidation_exact 18446744073709551615
    [(0, 18446744073709551615), (1, 0)] (by decide)
  use hconsumed
  rw [hmismatch]
  intro i hi
  rw [List.length_cons, List.length_singleton] at hi
  obtain rfl | rfl : i = 0 ∨ i = 1 := by omega
  · rfl
  · rfl

end PairedBenchmark
