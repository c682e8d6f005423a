import LowLatency.Disruptor.Backpressure

/-!
# The latency scenario of the wait strategies

`measure_latency` hands events from one thread to another through a ring of 1024 slots. After
each event the producer waits until the consumer has released it, so that no event queues
behind another. The loop compares `consumer_sequence(0)` with the sequence published, and
`consumer_sequence(0)` reads `2 ^ 64 - 1` as long as nothing is released.
-/

open Disruptor (SequenceType Geometry toWord)

namespace WaitStrategy

/-! ### Wait policies -/

/-- A policy for unsuccessful polls. The pauses and yields have no effect on memory. -/
structure WaitPolicy (W : Type) where
  initial : W
  wait : W → W
  reset : W → W

/-- `empty_spin_wait` -/
def emptySpinWait : WaitPolicy Unit where
  initial := ()
  wait w := w
  reset w := w

/-- `busy_spin_wait` -/
def busySpinWait : WaitPolicy Unit where
  initial := ()
  wait w := w
  reset w := w

/-- `adaptive_spin_wait<PauseLimit>`, by its `pause_count_`. -/
def adaptiveSpinWait (pauseLimit : ℕ) : WaitPolicy ℕ where
  initial := 0
  wait pauseCount := if pauseCount < pauseLimit then pauseCount + 1 else pauseCount
  reset _ := 0

/-! ### The scenario -/

def warmupCount : ℕ := 10000

def sampleCount : ℕ := 200000

/-- The local `total` of both threads. -/
def total : ℕ := warmupCount + sampleCount

/-- The ring of `stream_type`. -/
def geometry : Geometry where
  capacity := 1024
  consumerCount := 1
  capacity_ne_zero := by decide
  capacity_and_pred := by decide
  consumerCount_ne_zero := by decide
  capacity_le_half := by decide

/-- An event; `publishedAt` is a reading of the clock. -/
structure Event where
  value : UInt64
  publishedAt : ℕ
  deriving Inhabited

/-- The writer of the producer, called when the clock reads `now`. -/
def stamp (now : ℕ) : Disruptor.Writer Event :=
  fun _ output => { output with publishedAt := now }

/-- Where the producer thread stands. -/
inductive ProducerPlace where
  /-- Before the store of `start`. -/
  | starting
  /-- Before a call of `try_publish` for the event `sequence`. -/
  | publish (sequence : ℕ)
  /-- Inside the call. -/
  | publishing (sequence : ℕ)
  /-- Before a load of `consumer_sequence(0)` in the wait loop. -/
  | waitReleased (sequence : ℕ)
  | joining

/-- Where the consumer thread stands. -/
inductive ConsumerPlace where
  /-- Before a load of `start`. -/
  | starting
  /-- Before a call of `try_consume`, with `consumed` events consumed. -/
  | consume (consumed : ℕ)
  /-- Inside the call. -/
  | consuming (consumed : ℕ)
  | finished

/-- The state of both threads and of what they share. Of the consumer's cursor the wait loop
has last read the value at place `releasedView`, and of `start` the consumer that at place
`startView`. -/
structure State (W : Type) where
  stream : Disruptor.State SequenceType Event
  start : Location Bool
  producerPlace : ProducerPlace
  producerWait : W
  releasedView : ℕ
  consumerPlace : ConsumerPlace
  consumerWait : W
  startView : ℕ

/-- A step of one of the threads. A load reads the value at place `place`, and a writer is
called when the clock reads `now`. -/
inductive Action where
  | producer (place now : ℕ)
  | consumer (place : ℕ)

namespace State

variable {W : Type} (policy : WaitPolicy W)

/-- The threads have not begun. -/
def init : State W where
  stream := Disruptor.State.init geometry 0
  start := Location.init false
  producerPlace := .starting
  producerWait := policy.initial
  releasedView := 0
  consumerPlace := .starting
  consumerWait := policy.initial
  startView := 0

/-! ### The producer thread -/

/-- The head of the loop over the events. -/
def nextEvent (sequence : ℕ) : ProducerPlace :=
  if sequence < total then .publish sequence else .joining

/-- The producer after a step of its call of `try_publish`, which may have returned. -/
def afterPublish (s : State W) (sequence : ℕ) (stream : Disruptor.State SequenceType Event) :
    State W :=
  match stream.producer.pc with
  | .idle =>
      if stream.producer.returned.getLastD false = true then
        { s with
          stream := stream
          producerPlace := .waitReleased sequence
          producerWait := policy.reset s.producerWait }
      else
        { s with
          stream := stream
          producerPlace := .publish sequence
          producerWait := policy.wait s.producerWait }
  | _ => { s with stream := stream, producerPlace := .publishing sequence }

/-- The producer after a load of `consumer_sequence(0)` at place `place`. -/
def afterLoad (s : State W) (sequence place : ℕ) : State W :=
  if s.stream.consumerSequence geometry 0 place < BitVec.ofNat 64 sequence then
    { s with releasedView := place, producerWait := policy.wait s.producerWait }
  else
    { s with
      releasedView := place
      producerPlace := nextEvent (sequence + 1)
      producerWait := policy.reset s.producerWait }

/-- A step of the producer thread. Its loads of the consumer's cursor are never older than
what it has already read. -/
def stepProducer (s : State W) (place now : ℕ) : Option (State W) :=
  match s.producerPlace with
  | .starting => some { s with start := s.start.store true, producerPlace := nextEvent 0 }
  | .publish sequence =>
      (s.stream.step geometry.wrapping geometry (.producer (.publish 1 (stamp now)))).map
        (s.afterPublish policy sequence)
  | .publishing sequence =>
      if s.releasedView ≤ place then
        (s.stream.step geometry.wrapping geometry (.producer (.resume place))).map
          (s.afterPublish policy sequence)
      else none
  | .waitReleased sequence =>
      ((s.stream.released 0).load (max s.releasedView (s.stream.producer.views 0)) place).map
        fun _ => s.afterLoad policy sequence place
  | .joining => none

/-! ### The consumer thread -/

/-- The head of the loop of the consumer. -/
def nextConsumed (consumed : ℕ) : ConsumerPlace :=
  if consumed < total then .consume consumed else .finished

/-- The consumer after a step of its call of `try_consume`, which may have returned. -/
def afterConsume (s : State W) (consumed : ℕ) (stream : Disruptor.State SequenceType Event) :
    State W :=
  match (stream.consumer 0).pc with
  | .idle =>
      if (stream.consumer 0).returned.getLastD 0 = 1 then
        { s with
          stream := stream
          consumerPlace := nextConsumed (consumed + 1)
          consumerWait := policy.reset s.consumerWait }
      else
        { s with
          stream := stream
          consumerPlace := .consume consumed
          consumerWait := policy.wait s.consumerWait }
  | _ => { s with stream := stream, consumerPlace := .consuming consumed }

/-- A step of the consumer thread. -/
def stepConsumer (s : State W) (place : ℕ) : Option (State W) :=
  match s.consumerPlace with
  | .starting =>
      (s.start.load s.startView place).map fun started =>
        if started = true then
          { s with
            startView := place
            consumerPlace := nextConsumed 0
            consumerWait := policy.reset s.consumerWait }
        else { s with startView := place, consumerWait := policy.wait s.consumerWait }
  | .consume consumed =>
      (s.stream.step geometry.wrapping geometry (.consumer 0 (.consume 1))).map
        (s.afterConsume policy consumed)
  | .consuming consumed =>
      (s.stream.step geometry.wrapping geometry (.consumer 0 (.resume place))).map
        (s.afterConsume policy consumed)
  | .finished => none

/-- A step of one of the threads. -/
def step (s : State W) : Action → Option (State W)
  | .producer place now => s.stepProducer policy place now
  | .consumer place => s.stepConsumer policy place

end State

/-- `measure_latency` -/
def measureLatency {W : Type} (policy : WaitPolicy W) : TransitionSystem (State W) Action where
  initial := State.init policy
  step action s := s.step policy action

end WaitStrategy
