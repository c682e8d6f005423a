import LowLatency.Disruptor.Refinement
import LowLatency.Throughput.SpscMachine

/-!
# The queues and the disruptor do the same job

A disruptor with one consumer, used through `try_publish` and `try_consume(0)`, is a bounded
queue as well: the events its consumer has not reached. So it accepts, refuses and hands over
what the two rings do, and the comparison of their throughput is one of the same work.
-/

open Disruptor (SequenceType Geometry MulticastLog Response)

namespace Throughput

/-- The ring of `single_producer_disruptor<event, capacity, 1>`. -/
def geometry : Geometry where
  capacity := 65536
  consumerCount := 1
  capacity_ne_zero := by decide
  capacity_and_pred := by decide
  consumerCount_ne_zero := Nat.one_pos
  capacity_le_half := by decide

structure Event where
  value : UInt64
  deriving Inhabited

def writeEvent (value : UInt64) : Disruptor.Writer Event :=
  fun _ output => { output with value := value }

namespace DisruptorQueue

/-- What `try_publish` returns. -/
def published : Response SequenceType Event → Bool
  | .published result => result
  | _ => false

/-- The value which the handler of `try_consume` is called on, when that returns true. -/
def consumed : Response SequenceType Event → Option UInt64
  | .consumed count events =>
      if count = 1 then events.head?.map fun event => event.1.value else none
  | _ => none

/-- The disruptor as a queue. -/
def perform : Service (Disruptor.State SequenceType Event) (QueueRequest UInt64)
    (QueueResponse UInt64) := fun s request =>
  match request with
  | .push value =>
      (s.perform geometry.wrapping geometry (.publish 1 (writeEvent value))).map fun answer =>
        (.pushed (published answer.1), answer.2)
  | .pop =>
      (s.perform geometry.wrapping geometry (.consume 0 1)).map fun answer =>
        (.popped (consumed answer.1), answer.2)

/-- The log whose events from the offset of the consumer on are a queue. -/
structure Holds (log : MulticastLog Event) (queue : List UInt64) : Prop where
  session : log.session = false
  offset_le : log.offset 0 ≤ log.entries.length
  queue : (log.entries.drop (log.offset 0)).map Event.value = queue

variable {initialPosition : SequenceType} {log : MulticastLog Event} {queue : List UInt64}

theorem Holds.length (h : Holds log queue) :
  log.entries.length - log.offset 0 = queue.length
  := by
  rw [← h.queue, List.length_map, List.length_drop]

/-- There is room for one more event when the queue is not full. -/
theorem Holds.hasRoom_iff (h : Holds log queue) :
  log.HasRoom geometry 1 ↔ queue.length < 65536
  := by
  have hlength := h.length
  constructor
  · intro hroom
    have hfirst : log.entries.length - log.offset 0 ≤ 65536 - 1 := hroom 0 (by decide)
    omega
  · intro hlt i hi
    have hcount : i < 1 := hi
    obtain rfl : i = 0 := by omega
    change log.entries.length - log.offset 0 ≤ 65536 - 1
    omega

/-- A publication is a push. -/
theorem Holds.publish (h : Holds log queue) (initialPosition : SequenceType) (value : UInt64) :
  ∃ log', log.perform geometry.wrapping geometry initialPosition (.publish 1 (writeEvent value))
      = some (.published (BoundedQueue.push 65536 queue value).1, log')
    ∧ Holds log' (BoundedQueue.push 65536 queue value).2
  := by
  have hone : ¬1 > geometry.capacity := by decide
  simp only [MulticastLog.perform, h.session, MulticastLog.publish, if_neg one_ne_zero,
    if_neg hone, BoundedQueue.push, h.hasRoom_iff]
  by_cases hroom : queue.length < 65536
  · have hoffset := h.offset_le
    simp only [if_pos hroom]
    refine ⟨_, rfl, ?_⟩
    constructor
    · rfl
    · simp only [MulticastLog.length_append]
      omega
    · simp only [MulticastLog.append, List.drop_append_of_le_length hoffset, List.map_append,
        h.queue]
      rfl
  · simp only [if_neg hroom]
    exact ⟨log, rfl, h⟩

/-- A call for one event is a pop. -/
theorem Holds.consume (h : Holds log queue) (initialPosition : SequenceType) :
  ∃ response log', log.perform geometry.wrapping geometry initialPosition (.consume 0 1)
      = some (response, log')
    ∧ consumed response = (BoundedQueue.pop queue).1 ∧ Holds log' (BoundedQueue.pop queue).2
  := by
  have hfirst : 0 < geometry.consumerCount := by decide
  have hlength := h.length
  have hqueue := h.queue
  have hoffset := h.offset_le
  simp only [MulticastLog.perform, MulticastLog.consume, if_pos hfirst, hlength]
  refine ⟨_, _, rfl, ?_⟩
  cases queue with
  | nil =>
      simp only [List.length_nil, Nat.min_zero, Nat.add_zero, Function.update_eq_self]
      exact ⟨rfl, h⟩
  | cons value queue =>
      have hcount : min 1 (value :: queue).length = 1 := by simp
      have hhead : log.entries[log.offset 0]?.map Event.value = some value := by
        rw [← List.head?_drop, ← List.head?_map, hqueue, List.head?_cons]
      rw [List.length_cons] at hlength
      simp only [hcount, consumed, if_true, BoundedQueue.pop, List.head?_cons, List.tail_cons]
      constructor
      · rw [List.head?_take, if_neg one_ne_zero, List.head?_drop, Disruptor.getElem?_stream,
          Option.map_map, ← hhead]
        rfl
      · constructor
        · apply h.session
        · simp only [Function.update_self]
          omega
        · simp only [Function.update_self]
          rw [← List.drop_drop, List.map_drop, hqueue, List.drop_one, List.tail_cons]

/-- The states of the disruptor that stand for a queue. -/
def Refines (initialPosition : SequenceType) (s : Disruptor.State SequenceType Event)
    (queue : List UInt64) : Prop :=
  ∃ log, Disruptor.Refines.Words geometry initialPosition log s ∧ Holds log queue

theorem refines_init (initialPosition : SequenceType) :
  Refines initialPosition (Disruptor.State.init geometry initialPosition) []
  := by
  use MulticastLog.empty
  constructor
  · use Disruptor.State.init geometry initialPosition.toNat,
      Disruptor.Refines.refines_init geometry initialPosition
    rw [Disruptor.State.init_map, Disruptor.toWord_toNat]
  · constructor
    · rfl
    · apply le_rfl
    · rfl

variable {s : Disruptor.State SequenceType Event}

/-- The disruptor answers an operation as the log does. -/
theorem exists_answer (hs : Disruptor.Refines.Words geometry initialPosition log s)
    {op : Disruptor.Operation Event} {response : Response SequenceType Event}
    {log' : MulticastLog Event}
    (hlog : log.perform geometry.wrapping geometry initialPosition op = some (response, log')) :
  ∃ s', s.perform geometry.wrapping geometry op = some (response, s')
    ∧ Disruptor.Refines.Words geometry initialPosition log' s'
  := by
  obtain ⟨u, hu, rfl⟩ := hs
  have hagree := hu.perform op
  rw [hlog] at hagree
  generalize (u.map Disruptor.toWord).perform geometry.wrapping geometry op = answer at hagree
  cases hagree with
  | answered hwords => exact ⟨_, rfl, hwords⟩

theorem Refines.perform (h : Refines initialPosition s queue) (request : QueueRequest UInt64) :
  Service.Agree (Refines initialPosition) (DisruptorQueue.perform s request)
    (BoundedQueue.perform 65536 queue request)
  := by
  obtain ⟨log, hs, hlog⟩ := h
  cases request with
  | push value =>
      obtain ⟨log', hanswer, hlog'⟩ := hlog.publish initialPosition value
      obtain ⟨s', hperform, hs'⟩ := exists_answer hs hanswer
      rw [DisruptorQueue.perform, hperform]
      apply Service.Agree.answered
      use log'
  | pop =>
      obtain ⟨response, log', hanswer, hresponse, hlog'⟩ := hlog.consume initialPosition
      obtain ⟨s', hperform, hs'⟩ := exists_answer hs hanswer
      rw [DisruptorQueue.perform, hperform]
      dsimp only [Option.map_some]
      rw [hresponse]
      apply Service.Agree.answered
      use log'

/-- The disruptor is a bounded queue. -/
theorem responses_eq (initialPosition : SequenceType) (requests : List (QueueRequest UInt64)) :
  Service.responses DisruptorQueue.perform requests
      (Disruptor.State.init geometry initialPosition)
    = Service.responses (BoundedQueue.perform 65536) requests []
  := by
  apply Service.responses_eq (R := Refines initialPosition) _ requests
    (refines_init initialPosition)
  intro s queue request h
  apply h.perform

end DisruptorQueue

/-- To every list of attempts both rings and the disruptor give the responses of the queue of at
most 65536 values. Under every interleaving of one pusher and one popper, what is popped is a
prefix of what is pushed, at most 65536 values are outstanding, each of them is in its slot, and
the slot about to be written is the slot of none of them. An attempt during which the other
thread takes no step is an attempt on the ring. -/
theorem queues_exact :
  (∀ requests : List (QueueRequest UInt64),
    ∃ responses,
      Service.responses (BoundedQueue.perform 65536) requests [] = some responses
      ∧ Service.responses MutexRing.perform requests MutexRing.initial = some responses
      ∧ Service.responses SpscRing.perform requests SpscRing.initial = some responses
      ∧ ∀ initialPosition : SequenceType,
          Service.responses DisruptorQueue.perform requests
            (Disruptor.State.init geometry initialPosition) = some responses)
  ∧ ∀ s : SpscState, SpscState.machine.Reachable s →
    s.popped <+: s.pushed
    ∧ s.pushed.length ≤ s.popped.length + 65536
    ∧ (∀ (k : ℕ) (h : k < s.pushed.length), s.popped.length ≤ k →
        s.pusher.values (k % 65536) = s.pushed[k])
    ∧ (∀ value word, s.pusher.pc = .writeSlot value word →
        ∀ k, s.popped.length ≤ k → k < s.pushed.length →
          (word &&& (capacity - 1)).toNat ≠ k % 65536)
    ∧ (s.pusher.pc = .idle → ∀ value, ∃ t, s.step (.push value) = some t
        ∧ t.returnPush.ring = (s.ring.tryPush value).2
        ∧ t.returnPush.pusher.returned
          = s.pusher.returned ++ [(value, (s.ring.tryPush value).1)]
        ∧ t.returnPush.pusher.pc = .idle)
    ∧ (s.popper.pc = .idle → ∃ t, s.step .pop = some t
        ∧ t.returnPop.ring = s.ring.tryPop.2
        ∧ t.returnPop.popper.returned = s.popper.returned ++ [s.ring.tryPop.1]
        ∧ t.returnPop.popper.pc = .idle)
  := by
  constructor
  · intro requests
    obtain ⟨responses, hqueue⟩ := exists_responses (BoundedQueue.push 65536)
      BoundedQueue.pop requests ([] : List UInt64)
    have hresponses : Service.responses (BoundedQueue.perform 65536) requests []
        = some responses := hqueue
    refine ⟨responses, hresponses, ?_, ?_, ?_⟩
    · rw [MutexRing.responses_eq, hresponses]
    · rw [SpscRing.responses_eq, hresponses]
    · intro initialPosition
      rw [DisruptorQueue.responses_eq, hresponses]
  · intro s hs
    have h := SpscState.inv_of_reachable hs
    refine ⟨h.popped_prefix, h.outstanding_le, ?_, ?_, h.returnPush_eq, h.returnPop_eq⟩
    · intro k hpushed hpopped
      apply h.slot_eq hpopped hpushed
    · intro value word hpc k hpopped hpushed
      apply h.slot_ne hpc hpopped hpushed

/-- The first pop finds nothing, the second one takes 7 while 8 is pushed. The third push reads
the counter of the popper late and is about to write. -/
def interleaved : List SpscAction :=
  [.push 7, .resumePush 0, .pop, .resumePop 0, .resumePush 0, .resumePop 0, .resumePush 0,
    .pop, .resumePop 0, .resumePush 0, .resumePop 1, .push 8, .resumePush 0, .resumePop 0,
    .resumePush 0, .resumePush 0, .resumePop 0, .resumePush 0, .push 9, .resumePush 0,
    .resumePush 0]

theorem queues_exact_interleaved :
  ∃ s, SpscState.machine.run interleaved SpscState.initial = some s
    ∧ s.pushed = [7, 8] ∧ s.popper.returned = [none, some 7]
    ∧ s.popped <+: s.pushed ∧ s.pusher.pc = .writeSlot 9 2
    ∧ s.pusher.values 1 = 8 ∧ ((2 : Word) &&& (capacity - 1)).toNat ≠ 1
    ∧ ∃ t, s.step .pop = some t ∧ t.returnPop.popper.returned = [none, some 7, some 8]
  := by
  have hrun : ∃ s, SpscState.machine.run interleaved SpscState.initial = some s
      ∧ s.pushed = [7, 8] ∧ s.popped = [7] ∧ s.popper.returned = [none, some 7]
      ∧ s.pusher.pc = .writeSlot 9 2 ∧ s.popper.pc = .idle ∧ s.ring.tryPop.1 = some 8 :=
    ⟨_, rfl, rfl, rfl, rfl, rfl, rfl, rfl⟩
  obtain ⟨s, hrun, hpushed, hpopped, hreturned, hpc, hidle, hpop⟩ := hrun
  obtain ⟨hfirst, -, hslots, hwrite, -, hreturn⟩ := queues_exact.2 s ⟨interleaved, hrun⟩
  have hlt : 1 < s.pushed.length := by
    rw [hpushed]
    apply Nat.one_lt_two
  have hle : s.popped.length ≤ 1 := by
    rw [hpopped]
    rfl
  have hvalue : s.pusher.values 1 = 8 :=
    (hslots 1 hlt hle).trans (List.getElem_of_eq hpushed hlt)
  obtain ⟨t, ht, -, hlast, -⟩ := hreturn hidle
  rw [hreturned, hpop] at hlast
  use s, hrun, hpushed, hreturned, hfirst, hpc, hvalue, hwrite 9 2 hpc 1 hle hlt, t, ht, hlast

end Throughput
