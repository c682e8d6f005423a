import LowLatency.Disruptor.Backpressure
import LowLatency.PairedBenchmark.Validation
import LowLatency.Percentiles.Summary

/-!
# The paired latency benchmark

`run_latency` hands events from one thread to another through a ring, one at a time: after each
event the producer waits until the consumer has released its position. Either thread may fail to
pin itself, and then the other one gives up as well.

A run begins when the consumer thread is created. The handler of the consumer writes the samples
and what it counts; the main thread reads them once it has joined the consumer.
-/

open Disruptor (SequenceType Geometry)

namespace PairedLatency

/-! ### The data -/

/-- `ring_capacity` -/
def ringCapacity : ℕ := 65536

theorem ringCapacity_pos : ringCapacity > 0 := by decide

theorem ringCapacity_and_pred : ringCapacity &&& (ringCapacity - 1) = 0 := by decide

theorem ringCapacity_le_half : ringCapacity ≤ (2 ^ 64 - 1) / 2 := by decide

/-- The ring of `stream_type`. -/
def geometry : Geometry where
  capacity := ringCapacity
  consumerCount := 1
  capacity_ne_zero := ringCapacity_pos
  capacity_and_pred := ringCapacity_and_pred
  consumerCount_ne_zero := Nat.one_pos
  capacity_le_half := ringCapacity_le_half

/-- An event; `publishedNs` is a reading of the clock. -/
structure Event where
  publishedNs : Int64
  deriving Inhabited

/-- The settings which `parse_arguments` accepts. -/
structure Config where
  events : UInt64
  warmupEvents : UInt64
  producerCpu : ℤ
  consumerCpu : ℤ
  events_pos : 0 < events.toNat
  total_le : warmupEvents.toNat + events.toNat ≤ 2 ^ 63 - 1

/-- The local `total`. -/
def Config.total (settings : Config) : UInt64 :=
  settings.warmupEvents + settings.events

def Distribution.initial : Distribution where
  p50Ns := 0
  p90Ns := 0
  p95Ns := 0
  p99Ns := 0
  p99_9Ns := 0
  maximumNs := 0
  positiveMeasuredEvents := 0

structure Measurement where
  consumed : UInt64
  sequenceChecksum : UInt64
  orderMismatch : UInt64
  nonpositiveLatencyCount : UInt64
  producerCpuObserved : ℤ
  consumerCpuObserved : ℤ
  latency : Distribution

def Measurement.initial : Measurement where
  consumed := 0
  sequenceChecksum := 0
  orderMismatch := 0
  nonpositiveLatencyCount := 0
  producerCpuObserved := -1
  consumerCpuObserved := -1
  latency := Distribution.initial

/-- `expected_checksum` -/
def expectedChecksum (count : UInt64) : UInt64 :=
  if count &&& 1 = 0 then (count / 2) * (count - 1) else count * ((count - 1) / 2)

/-- What `pin_and_verify_current_thread` throws. -/
inductive PinFailure where
  | set (result : ℤ)
  | get (result : ℤ)
  | mask
  | cpu

/-- What `run_latency` throws. -/
inductive Failure where
  | pin (failure : PinFailure)
  | invalidSample
  | notAllPositive

def Failure.what : Failure → String
  | .pin (.set result) => "pthread_setaffinity_np failed with error " ++ toString result
  | .pin (.get result) => "pthread_getaffinity_np failed with error " ++ toString result
  | .pin .mask => "affinity mask verification failed"
  | .pin .cpu => "running CPU verification failed"
  | .invalidSample => "latency sample failed validation"
  | .notAllPositive => "measured latency sample is not all-positive"

/-- The writer of the producer, called when the clock reads `now`. -/
def stamp (now : Int64) : Disruptor.Writer Event :=
  fun _ output => { output with publishedNs := now }

/-! ### The two threads -/

/-- Where the main thread stands, which is the producer. An error is that of an exception, or
`none` where the null pointer would be rethrown. -/
inductive ProducerPlace where
  /-- Before a load of `ready`. -/
  | waitReady
  /-- Before a load of `failed`, in the loop which waits for `ready`. -/
  | checkReady
  | pin
  /-- Before a call of `try_publish_batch` for the event `published`. -/
  | publish (published : ℕ)
  /-- Inside the call. -/
  | publishing (published : ℕ)
  /-- Before a load of `failed`, after a call that returned false. -/
  | checkPublish (published : ℕ)
  /-- Before a load of `consumer_position(0)`. -/
  | waitReleased (published : ℕ)
  /-- Before a load of `failed`, where the event is not released. -/
  | checkReleased (published : ℕ)
  /-- In the `catch` block, before the store of `failed`. -/
  | catching (error : Option Failure)
  /-- In the `catch` block, before the consumer is joined. -/
  | joiningToThrow (error : Option Failure)
  | joining
  /-- The outcome; `none` is undefined behaviour. -/
  | finished (outcome : Option (Except Failure Measurement))

/-- Where the consumer thread stands. -/
inductive ConsumerPlace where
  | makeConsumer
  | pin
  /-- Before the store of `ready`. -/
  | ready
  /-- Before a call of `consume_available`. -/
  | consume
  /-- Inside the call. -/
  | consuming
  /-- Before a load of `failed`, after a call that returned zero. -/
  | checkFailed
  /-- In the `catch` block, before the store of `failed`. -/
  | catching
  | finished

/-- The state of both threads and of what they share. Of each atomic variable a thread has last
read the value at its view. The last field records the run: the readings of the clock by the
handler. -/
structure State where
  stream : Disruptor.State SequenceType Event
  ready : Location Bool
  failed : Location Bool
  consumerError : Option Failure
  samples : List Int64
  result : Measurement
  producerPlace : ProducerPlace
  readyView : ℕ
  failedView : ℕ
  releasedView : ℕ
  consumerPlace : ConsumerPlace
  consumerFailedView : ℕ
  received : List Int64

/-- A step of one of the threads. A load reads the value at place `place`, and a handler or a
writer reads `now` from the clock. -/
inductive Action where
  | producer (place : ℕ) (now : Int64)
  | producerFails (failure : PinFailure)
  | consumer (place : ℕ) (now : Int64)
  | consumerFails (failure : PinFailure)

namespace State

variable (settings : Config)

/-- The ring with the handle of the producer, and the consumer thread created. -/
def init : State where
  stream :=
    let stream : Disruptor.State SequenceType Event := Disruptor.State.init geometry 0
    { stream with
      producer :=
        { stream.producer with session := some { owner := true, state := stream.producer.owner } } }
  ready := Location.init false
  failed := Location.init false
  consumerError := none
  samples := List.replicate settings.total.toNat 0
  result := Measurement.initial
  producerPlace := .waitReady
  readyView := 0
  failedView := 0
  releasedView := 0
  consumerPlace := .makeConsumer
  consumerFailedView := 0
  received := []

/-! ### The main thread -/

/-- The head of the loop over the events. -/
def nextEvent (published : ℕ) : ProducerPlace :=
  if published < settings.total.toNat then .publish published else .joining

/-- The producer after a step of its call of `try_publish_batch`, which may have returned. -/
def afterPublish (s : State) (published : ℕ) (stream : Disruptor.State SequenceType Event) :
    State :=
  match stream.producer.pc with
  | .idle =>
      if stream.producer.returned.getLastD false = true then
        { s with stream := stream, producerPlace := .waitReleased published }
      else
        { s with stream := stream, producerPlace := .checkPublish published }
  | _ => { s with stream := stream, producerPlace := .publishing published }

/-- The producer after a load of `failed`, which it passes if that is false. -/
def afterFailed (s : State) (place : ℕ) (next : ProducerPlace) (failed : Bool) : State :=
  if failed = true then
    { s with failedView := place, producerPlace := .catching s.consumerError }
  else { s with failedView := place, producerPlace := next }

/-- The producer after a load of `consumer_position(0)`. -/
def afterPosition (s : State) (published place : ℕ) : State :=
  if s.stream.consumerPosition geometry 0 place < BitVec.ofNat 64 (published + 1) then
    { s with releasedView := place, producerPlace := .checkReleased published }
  else { s with releasedView := place, producerPlace := nextEvent settings (published + 1) }

/-- What follows when the consumer is joined and has not thrown. -/
def validate (s : State) : Option (Except Failure Measurement) :=
  let total := settings.total
  if s.result.consumed ≠ total ∨ s.result.sequenceChecksum ≠ expectedChecksum total
      ∨ s.result.orderMismatch ≠ 0 ∨ s.result.nonpositiveLatencyCount ≠ 0 then
    some (.error .invalidSample)
  else
    (summarize s.samples settings.warmupEvents settings.events).map fun latency =>
      if latency.positiveMeasuredEvents ≠ settings.events then .error .notAllPositive
      else .ok { s.result with latency := latency }

/-- What follows when the consumer is joined. -/
def conclude (s : State) : Option (Except Failure Measurement) :=
  match s.consumerError with
  | some error => some (.error error)
  | none => s.validate settings

/-- A step of the main thread. Its loads of the consumer's cursor are never older than what it
has already read. -/
def stepProducer (s : State) (place : ℕ) (now : Int64) : Option State :=
  match s.producerPlace with
  | .waitReady =>
      (s.ready.load s.readyView place).map fun ready =>
        { s with
          readyView := place
          producerPlace := if ready = true then .pin else .checkReady }
  | .checkReady => (s.failed.load s.failedView place).map (s.afterFailed place .waitReady)
  | .pin =>
      some { s with
        result := { s.result with producerCpuObserved := settings.producerCpu }
        producerPlace := nextEvent settings 0 }
  | .publish published =>
      (s.stream.step geometry.wrapping geometry (.producer (.publishHandle 1 (stamp now)))).map
        (s.afterPublish published)
  | .publishing published =>
      if s.releasedView ≤ place then
        (s.stream.step geometry.wrapping geometry (.producer (.resume place))).map
          (s.afterPublish published)
      else none
  | .checkPublish published =>
      (s.failed.load s.failedView place).map (s.afterFailed place (.publish published))
  | .waitReleased published =>
      ((s.stream.released 0).load (max s.releasedView (s.stream.producer.views 0)) place).map
        fun _ => s.afterPosition settings published place
  | .checkReleased published =>
      (s.failed.load s.failedView place).map (s.afterFailed place (.waitReleased published))
  | .catching error =>
      some { s with failed := s.failed.store true, producerPlace := .joiningToThrow error }
  | .joiningToThrow error =>
      match s.consumerPlace with
      | .finished => some { s with producerPlace := .finished (error.map .error) }
      | _ => none
  | .joining =>
      match s.consumerPlace with
      | .finished => some { s with producerPlace := .finished (s.conclude settings) }
      | _ => none
  | .finished _ => none

/-- The main thread cannot pin itself. -/
def failProducer (s : State) (failure : PinFailure) : Option State :=
  match s.producerPlace with
  | .pin => some { s with producerPlace := .catching (some (.pin failure)) }
  | _ => none

/-! ### The consumer thread -/

/-- The handler, called on an event when the clock reads `receivedNs`. -/
def handler (s : State) (receivedNs : Int64) (input : Event) (sequence : UInt64) : State :=
  let expected := s.result.consumed
  let elapsedNs := receivedNs - input.publishedNs
  { s with
    samples := s.samples.set expected.toNat elapsedNs
    result :=
      { s.result with
        orderMismatch := s.result.orderMismatch ||| (sequence ^^^ expected)
        sequenceChecksum := s.result.sequenceChecksum + sequence
        nonpositiveLatencyCount :=
          s.result.nonpositiveLatencyCount + if elapsedNs > 0 then 0 else 1
        consumed := expected + 1 }
    received := s.received ++ [receivedNs] }

/-- The head of the loop of the consumer. -/
def nextConsumed (s : State) : ConsumerPlace :=
  if s.result.consumed < settings.total then .consume else .finished

/-- The consumer after a step of its call of `consume_available`, which may have returned. -/
def afterConsume (s : State) (stream : Disruptor.State SequenceType Event) : State :=
  match (stream.consumer 0).pc with
  | .idle =>
      if (stream.consumer 0).returned.getLastD 0 = 0 then
        { s with stream := stream, consumerPlace := .checkFailed }
      else { s with stream := stream, consumerPlace := s.nextConsumed settings }
  | _ => { s with stream := stream, consumerPlace := .consuming }

/-- The effect of the handler on a step of the call. -/
def handled (s : State) (now : Int64) (stream : Disruptor.State SequenceType Event) : State :=
  match (s.stream.consumer 0).pc, (stream.consumer 0).handled.getLast? with
  | .handle _ _ _, some (input, sequence) => s.handler now input (UInt64.ofBitVec sequence)
  | _, _ => s

/-- A step of the consumer thread. -/
def stepConsumer (s : State) (place : ℕ) (now : Int64) : Option State :=
  match s.consumerPlace with
  | .makeConsumer =>
      (s.stream.step geometry.wrapping geometry (.consumer 0 .makeConsumer)).map fun stream =>
        { s with stream := stream, consumerPlace := .pin }
  | .pin =>
      some { s with
        result := { s.result with consumerCpuObserved := settings.consumerCpu }
        consumerPlace := .ready }
  | .ready =>
      some { s with ready := s.ready.store true, consumerPlace := s.nextConsumed settings }
  | .consume =>
      (s.stream.step geometry.wrapping geometry (.consumer 0 (.consumeHandle 1))).map
        (s.afterConsume settings)
  | .consuming =>
      (s.stream.step geometry.wrapping geometry (.consumer 0 (.resume place))).map fun stream =>
        (s.handled now stream).afterConsume settings stream
  | .checkFailed =>
      (s.failed.load s.consumerFailedView place).map fun failed =>
        { s with
          consumerFailedView := place
          consumerPlace := if failed = true then .finished else .consume }
  | .catching => some { s with failed := s.failed.store true, consumerPlace := .finished }
  | .finished => none

/-- The consumer thread cannot pin itself. -/
def failConsumer (s : State) (failure : PinFailure) : Option State :=
  match s.consumerPlace with
  | .pin => some { s with consumerError := some (.pin failure), consumerPlace := .catching }
  | _ => none

/-- A step of one of the threads. -/
def step (s : State) : Action → Option State
  | .producer place now => s.stepProducer settings place now
  | .producerFails failure => s.failProducer failure
  | .consumer place now => s.stepConsumer settings place now
  | .consumerFails failure => s.failConsumer failure

end State

/-- `run_latency` -/
def runLatency (settings : Config) : TransitionSystem State Action where
  initial := State.init settings
  step action s := s.step settings action

end PairedLatency
