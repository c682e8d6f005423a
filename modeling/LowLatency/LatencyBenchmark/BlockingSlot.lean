import LowLatency.Library.Location
import LowLatency.Library.Monitor
import LowLatency.Library.Transition

/-!
# The blocking baseline of the latency benchmark

`blocking_latency` hands readings of the clock from one thread to another through a slot for one
value, `blocking_slot`, which a mutex and two condition variables protect. The consumer samples
how long each value has been on its way.

A run begins when both threads are pinned. What a thread does with the slot while it owns the
mutex is one step: nobody else looks at the slot then.
-/

namespace LatencyBenchmark

def warmupCount : ℕ := 10000

def sampleCount : ℕ := 200000

/-- The local `total` of both threads. -/
def total : ℕ := warmupCount + sampleCount

theorem total_pos : 0 < total := by
  rw [total, sampleCount]
  omega

/-! ### The slot -/

/-- The data of `blocking_slot`; `publishedAt` is a reading of the clock. -/
structure Slot where
  publishedAt : Int64
  full : Bool

/-- The condition variables of `blocking_slot`. -/
inductive Condition where
  | available
  | consumed
  deriving DecidableEq

/-- The threads of a run. -/
inductive Role where
  | producer
  | consumer
  deriving DecidableEq

instance : Fintype Role where
  elems := {.producer, .consumer}
  complete role := by
    cases role with
    | producer => simp
    | consumer => simp

/-- `publish` -/
def publish (publishedAt : Int64) : Command Condition Slot (Option Int64) where
  guard slot := !slot.full
  condition := .consumed
  update _ := (none, { publishedAt := publishedAt, full := true })
  notifies := .available

/-- `consume`, which returns what was published. -/
def consume : Command Condition Slot (Option Int64) where
  guard slot := slot.full
  condition := .available
  update slot := (some slot.publishedAt, { slot with full := false })
  notifies := .consumed

/-! ### The two threads -/

/-- Where the main thread stands, which is the producer. -/
inductive ProducerPlace where
  /-- Before the store of `start`. -/
  | starting
  /-- Before it reads the clock. -/
  | publish (sequence : ℕ)
  /-- Inside `publish`. -/
  | publishing (sequence : ℕ)
  | joining
  | finished

/-- Where the consumer thread stands. -/
inductive ConsumerPlace where
  /-- Before a load of `start`. -/
  | waitStart
  | consume (consumed : ℕ)
  /-- Inside `consume`. -/
  | consuming (consumed : ℕ)
  /-- Before it reads the clock. -/
  | sample (consumed : ℕ) (publishedAt : Int64)
  | finished

/-- The state of both threads and of what they share. The last three fields record the run: the
readings of the clock handed to `publish`, what `consume` returned, and the readings of the clock
after it. -/
structure State where
  slot : Monitor Role Condition Slot (Option Int64)
  start : Location Bool
  samples : List Int64
  producerPlace : ProducerPlace
  consumerPlace : ConsumerPlace
  startView : ℕ
  published : List Int64
  taken : List Int64
  received : List Int64

/-- A step of one of the threads, which may read `now` from the clock; a notification wakes
`sleeper`. -/
inductive Action where
  | producer (now : Int64) (sleeper : Option Role)
  | consumer (now : Int64) (sleeper : Option Role)
  /-- The consumer loads the value of `start` at a place. -/
  | poll (place : ℕ)
  /-- A thread is woken for no reason. -/
  | wake (role : Role)

/-- The thread that takes a step. -/
def Action.role : Action → Role
  | .producer _ _ => .producer
  | .consumer _ _ | .poll _ => .consumer
  | .wake role => role

namespace State

def init : State where
  slot := Monitor.init { publishedAt := 0, full := false }
  start := Location.init false
  samples := List.replicate sampleCount 0
  producerPlace := .starting
  consumerPlace := .waitStart
  startView := 0
  published := []
  taken := []
  received := []

/-- The head of the loop of the producer. -/
def nextPublish (sequence : ℕ) : ProducerPlace :=
  if sequence < total then .publish sequence else .joining

/-- The head of the loop of the consumer. -/
def nextConsume (consumed : ℕ) : ConsumerPlace :=
  if consumed < total then .consume consumed else .finished

/-- After a step inside `publish`, which may be the last one. -/
def afterPublish (s : State) (sequence : ℕ) (slot : Monitor Role Condition Slot (Option Int64)) :
    State :=
  match slot.phase .producer with
  | .outside _ => { s with slot := slot, producerPlace := nextPublish (sequence + 1) }
  | _ => { s with slot := slot }

/-- A step of the main thread. -/
def stepProducer (s : State) (now : Int64) (sleeper : Option Role) : Option State :=
  match s.producerPlace with
  | .starting => some { s with start := s.start.store true, producerPlace := nextPublish 0 }
  | .publish sequence =>
      (s.slot.enter .producer (LatencyBenchmark.publish now)).map fun slot =>
        { s with
          slot := slot
          producerPlace := .publishing sequence
          published := s.published ++ [now] }
  | .publishing sequence =>
      (s.slot.resume .producer sleeper).map (s.afterPublish sequence)
  | .joining =>
      match s.consumerPlace with
      | .finished => some { s with producerPlace := .finished }
      | _ => none
  | .finished => none

/-- The sample of an event, which is taken after the warm-up only. -/
def record (samples : List Int64) (consumed : ℕ) (elapsed : Int64) : List Int64 :=
  if consumed ≥ warmupCount then samples.set (consumed - warmupCount) elapsed else samples

/-- After a step inside `consume`, which may be the last one. -/
def afterConsume (s : State) (consumed : ℕ) (slot : Monitor Role Condition Slot (Option Int64)) :
    State :=
  match slot.phase .consumer with
  | .outside (some (some publishedAt)) =>
      { s with
        slot := slot
        consumerPlace := .sample consumed publishedAt
        taken := s.taken ++ [publishedAt] }
  | _ => { s with slot := slot }

/-- A step of the consumer thread, past its loop over `start`. -/
def stepConsumer (s : State) (now : Int64) (sleeper : Option Role) : Option State :=
  match s.consumerPlace with
  | .waitStart => none
  | .consume consumed =>
      (s.slot.enter .consumer LatencyBenchmark.consume).map fun slot =>
        { s with slot := slot, consumerPlace := .consuming consumed }
  | .consuming consumed =>
      (s.slot.resume .consumer sleeper).map (s.afterConsume consumed)
  | .sample consumed publishedAt =>
      some { s with
        samples := record s.samples consumed (now - publishedAt)
        consumerPlace := nextConsume (consumed + 1)
        received := s.received ++ [now] }
  | .finished => none

/-- A load of `start` by the consumer. -/
def poll (s : State) (place : ℕ) : Option State :=
  match s.consumerPlace with
  | .waitStart =>
      (s.start.load s.startView place).map fun start =>
        { s with
          startView := place
          consumerPlace := if start = true then nextConsume 0 else .waitStart }
  | _ => none

/-- A step of one of the threads. -/
def step (s : State) : Action → Option State
  | .producer now sleeper => s.stepProducer now sleeper
  | .consumer now sleeper => s.stepConsumer now sleeper
  | .poll place => s.poll place
  | .wake role => (s.slot.wake role).map fun slot => { s with slot := slot }

end State

/-- `blocking_latency` -/
def blockingLatency : TransitionSystem State Action where
  initial := State.init
  step action s := s.step action

end LatencyBenchmark
