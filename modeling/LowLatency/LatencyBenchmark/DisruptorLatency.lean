import LowLatency.Disruptor.Backpressure
import LowLatency.LatencyBenchmark.BlockingSlot

/-!
# The ring in the latency benchmark

`disruptor_latency` hands events in batches from one thread to any number of consumer threads.
After each batch the producer waits until every consumer has released it. All consumers write
their samples into one vector, and each of them checks what it reads.

A run begins when the main thread is pinned.
-/

open Disruptor (SequenceType Geometry)

namespace LatencyBenchmark

/-! ### The data -/

/-- The template arguments of `disruptor_latency`, as `main` chooses them; the events have
`payloadSize` words beside the reading of the clock, which are none for `event_8` and seven for
`event_64`. -/
structure Settings where
  payloadSize : ℕ
  batchSize : ℕ
  consumerCount : ℕ
  batchSize_pos : 0 < batchSize
  batchSize_le : batchSize ≤ 1024
  consumerCount_pos : consumerCount > 0

theorem capacity_pos : 1024 > 0 := by decide

theorem capacity_and_pred : 1024 &&& (1024 - 1) = 0 := by decide

theorem capacity_le_half : 1024 ≤ (2 ^ 64 - 1) / 2 := by decide

/-- The ring of `stream_type`. -/
def Settings.geometry (settings : Settings) : Geometry where
  capacity := 1024
  consumerCount := settings.consumerCount
  capacity_ne_zero := capacity_pos
  capacity_and_pred := capacity_and_pred
  consumerCount_ne_zero := settings.consumerCount_pos
  capacity_le_half := capacity_le_half

/-- `event_8` and `event_64`; `publishedAt` is a reading of the clock. -/
structure Event (payloadSize : ℕ) where
  publishedAt : Int64
  payload : Vector UInt64 payloadSize

instance (payloadSize : ℕ) : Inhabited (Event payloadSize) where
  default := { publishedAt := 0, payload := Vector.replicate payloadSize 0 }

variable {payloadSize : ℕ}

/-- `fill_payload` -/
def fillPayload (output : Event payloadSize) (sequence : UInt64) : Event payloadSize :=
  { output with
    payload := Vector.ofFn fun index : Fin payloadSize => sequence + UInt64.ofNat index + 1 }

/-- `payload_is_correct` -/
def payloadIsCorrect (input : Event payloadSize) (sequence : UInt64) : Bool :=
  decide (∀ index : Fin payloadSize, input.payload[index] = sequence + UInt64.ofNat index + 1)

/-- The writer of the producer, where the clock reads `now index` at its call on `index`. -/
def stamp (published : ℕ) (now : ℕ → Int64) : Disruptor.Writer (Event payloadSize) :=
  fun index output =>
    fillPayload { output with publishedAt := now index } (UInt64.ofNat (published + index))

/-! ### The threads -/

/-- Where the main thread stands, which is the producer. -/
inductive PublisherPlace where
  /-- Before a load of `ready`. -/
  | waitReady
  /-- Before the store of `start`. -/
  | starting
  /-- Before a call of `try_publish_batch` for the events from `published` on. -/
  | publish (published : ℕ)
  /-- Inside the call. -/
  | publishing (published : ℕ)
  /-- Before a load of `consumer_position(index)`, where `published` is awaited. -/
  | waitReleased (published index : ℕ)
  /-- Before the thread of consumer `index` is joined. -/
  | joining (index : ℕ)
  | finished (correct : Bool)

/-- Where a consumer thread stands. -/
inductive ReaderPlace where
  /-- Before it counts itself in `ready`. -/
  | ready
  /-- Before a load of `start`. -/
  | waitStart
  /-- Before a call of `consume_available`. -/
  | consume
  /-- Inside the call. -/
  | consuming
  | finished

/-- The locals of a consumer thread. The last field records the run: the readings of the clock by
the handler. -/
structure Reader where
  place : ReaderPlace
  startView : ℕ
  consumed : ℕ
  checksum : UInt64
  expectedSequence : UInt64
  ordered : Bool
  received : List Int64

/-- The state of all threads and of what they share. -/
structure Harness (settings : Settings) where
  stream : Disruptor.State SequenceType (Event settings.payloadSize)
  samples : List Int64
  checksums : List UInt64
  start : Location Bool
  ready : Location ℕ
  place : PublisherPlace
  readyView : ℕ
  reader : ℕ → Reader

/-- A step of the main thread, or of the thread of consumer `index`. A load reads the value at place
`place`; the writer and the handler read the clock. -/
inductive HarnessAction where
  | publisher (place : ℕ) (now : ℕ → Int64)
  | reader (index place : ℕ) (now : Int64)

namespace Harness

variable {settings : Settings}

def init (settings : Settings) : Harness settings where
  stream := Disruptor.State.init settings.geometry 0
  samples := List.replicate (sampleCount * settings.consumerCount) 0
  checksums := List.replicate settings.consumerCount 0
  start := Location.init false
  ready := Location.init 0
  place := .waitReady
  readyView := 0
  reader _ :=
    { place := .ready
      startView := 0
      consumed := 0
      checksum := 0
      expectedSequence := 0
      ordered := true
      received := [] }

/-! ### The main thread -/

/-- The size of the batch that begins at `published`. -/
def count (settings : Settings) (published : ℕ) : ℕ :=
  min settings.batchSize (total - published)

/-- The head of the loop over the batches. -/
def nextBatch (published : ℕ) : PublisherPlace :=
  if published < total then .publish published else .joining 0

/-- The head of the loop which waits for consumer `index`. -/
def nextWait (settings : Settings) (published index : ℕ) : PublisherPlace :=
  if index < settings.consumerCount then .waitReleased published index else nextBatch published

/-- The producer after a step of its call of `try_publish_batch`, which may have returned. -/
def afterPublish (s : Harness settings) (published : ℕ)
    (stream : Disruptor.State SequenceType (Event settings.payloadSize)) : Harness settings :=
  match stream.producer.pc with
  | .idle =>
      if stream.producer.returned.getLastD false = true then
        { s with
          stream := stream
          place := nextWait settings (published + count settings published) 0 }
      else { s with stream := stream, place := .publish published }
  | _ => { s with stream := stream, place := .publishing published }

/-- The producer after it loads the value at place `place` of the cursor of consumer `index`. -/
def afterPosition (s : Harness settings) (published index place : ℕ) : Harness settings :=
  let stream := { s.stream with producer := s.stream.producer.observe index place }
  if s.stream.consumerPosition settings.geometry index place ≠ BitVec.ofNat 64 published then
    { s with stream := stream }
  else { s with stream := stream, place := nextWait settings published (index + 1) }

/-- `expected` -/
def expected : UInt64 :=
  UInt64.ofNat (total - 1) * UInt64.ofNat total / 2

/-- The local `correct`. -/
def correct (s : Harness settings) : Bool :=
  s.checksums.all fun checksum => checksum == expected

/-- The head of the loop which joins consumer `index`. -/
def nextJoin (s : Harness settings) (index : ℕ) : PublisherPlace :=
  if index < settings.consumerCount then .joining index else .finished s.correct

/-- A step of the main thread. -/
def stepPublisher (s : Harness settings) (place : ℕ) (now : ℕ → Int64) :
    Option (Harness settings) :=
  match s.place with
  | .waitReady =>
      (s.ready.load s.readyView place).map fun ready =>
        { s with
          readyView := place
          place := if ready ≠ settings.consumerCount then .waitReady else .starting }
  | .starting => some { s with start := s.start.store true, place := nextBatch 0 }
  | .publish published =>
      (s.stream.step settings.geometry.wrapping settings.geometry
        (.producer (.publish (count settings published) (stamp published now)))).map
        (s.afterPublish published)
  | .publishing published =>
      (s.stream.step settings.geometry.wrapping settings.geometry (.producer (.resume place))).map
        (s.afterPublish published)
  | .waitReleased published index =>
      ((s.stream.released index).load (s.stream.producer.views index) place).map fun _ =>
        s.afterPosition published index place
  | .joining index =>
      match (s.reader index).place with
      | .finished => some { s with place := s.nextJoin (index + 1) }
      | _ => none
  | .finished _ => none

/-! ### A consumer thread -/

/-- The locals of the thread of consumer `index` change. -/
def setReader (s : Harness settings) (index : ℕ) (reader : Reader) : Harness settings :=
  { s with reader := Function.update s.reader index reader }

/-- The handler of consumer `index`, called on an event when the clock reads `now`. -/
def handler (s : Harness settings) (index : ℕ) (now : Int64) (input : Event settings.payloadSize)
    (sequence : UInt64) : Harness settings :=
  let reader := s.reader index
  let elapsed := now - input.publishedAt
  { s with
    samples :=
      if sequence.toNat ≥ warmupCount then
        s.samples.set (index * sampleCount + (sequence.toNat - warmupCount)) elapsed
      else s.samples
    reader := Function.update s.reader index
      { reader with
        checksum := reader.checksum + sequence
        ordered := reader.ordered && sequence == reader.expectedSequence
          && payloadIsCorrect input sequence
        expectedSequence := reader.expectedSequence + 1
        received := reader.received ++ [now] } }

/-- The effect of the handler on a step of the call. -/
def handled (s : Harness settings) (index : ℕ) (now : Int64)
    (stream : Disruptor.State SequenceType (Event settings.payloadSize)) : Harness settings :=
  match (s.stream.consumer index).pc, (stream.consumer index).handled.getLast? with
  | .handle _ _ _, some (input, sequence) =>
      s.handler index now input (UInt64.ofBitVec sequence)
  | _, _ => s

/-- The head of the loop of consumer `index`, which has consumed `consumed` events. -/
def nextConsume (s : Harness settings) (index consumed : ℕ) : Harness settings :=
  if consumed < total then
    s.setReader index { s.reader index with consumed := consumed, place := .consume }
  else
    { s.setReader index { s.reader index with consumed := consumed, place := .finished } with
      checksums := s.checksums.set index
        (if (s.reader index).ordered = true then (s.reader index).checksum
        else 0xFFFFFFFFFFFFFFFF) }

/-- The consumer after a step of its call of `consume_available`, which may have returned. -/
def afterConsume (s : Harness settings) (index : ℕ)
    (stream : Disruptor.State SequenceType (Event settings.payloadSize)) : Harness settings :=
  match (stream.consumer index).pc with
  | .idle =>
      nextConsume { s with stream := stream } index
        ((s.reader index).consumed + (stream.consumer index).returned.getLastD 0)
  | _ => setReader { s with stream := stream } index { s.reader index with place := .consuming }

/-- A step of the thread of consumer `index`. -/
def stepReader (s : Harness settings) (index place : ℕ) (now : Int64) :
    Option (Harness settings) :=
  match (s.reader index).place with
  | .ready =>
      some (setReader { s with ready := s.ready.store (s.ready.current + 1) } index
        { s.reader index with place := .waitStart })
  | .waitStart =>
      (s.start.load (s.reader index).startView place).map fun start =>
        let s := s.setReader index { s.reader index with startView := place }
        if start = true then s.nextConsume index 0 else s
  | .consume =>
      (s.stream.step settings.geometry.wrapping settings.geometry
        (.consumer index (.consume settings.batchSize))).map (s.afterConsume index)
  | .consuming =>
      (s.stream.step settings.geometry.wrapping settings.geometry
        (.consumer index (.resume place))).map fun stream =>
          (s.handled index now stream).afterConsume index stream
  | .finished => none

/-- A step of one of the threads. -/
def step (s : Harness settings) : HarnessAction → Option (Harness settings)
  | .publisher place now => s.stepPublisher place now
  | .reader index place now =>
      if index < settings.consumerCount then s.stepReader index place now else none

end Harness

/-- `disruptor_latency` -/
def disruptorLatency (settings : Settings) : TransitionSystem (Harness settings) HarnessAction where
  initial := Harness.init settings
  step action s := s.step action

end LatencyBenchmark
