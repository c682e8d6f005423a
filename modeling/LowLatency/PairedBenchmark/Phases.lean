import LowLatency.Library.Location
import LowLatency.Library.Transition
import LowLatency.PairedBenchmark.Validation
import Mathlib.Data.Int.Notation

/-!
# The phases of the paired benchmark

The producer and the consumer thread of `run_all_phases`, over a ring which hands every event
published to the consumer once and in order. They share three counters of phases, which are
atomic, and two plain variables. The state keeps beside every event and every plain value the
phase it was written in.

Neither thread fails, so `failed` stays false and its loads are left out.
-/

namespace PairedBenchmark

/-! ### The shared state -/

structure Measurement where
  durationNs : ℤ
  producerCpuObserved : ℤ
  consumerCpuObserved : ℤ
  result : Validation

def Measurement.initial : Measurement where
  durationNs := 0
  producerCpuObserved := -1
  consumerCpuObserved := -1
  result := Validation.initial

/-- The settings of a run. A batch is never empty, and it divides the event counts. -/
structure Config where
  events : UInt64
  warmupEvents : UInt64
  warmupRuns : ℕ
  producerBatch : ℕ
  drainLimit : ℕ
  producerCpu : ℤ
  consumerCpu : ℤ
  producerBatch_pos : 0 < producerBatch
  events_dvd : producerBatch ∣ events.toNat
  warmupEvents_dvd : producerBatch ∣ warmupEvents.toNat

namespace Config

variable (settings : Config)

def totalPhases : ℕ := settings.warmupRuns + 1

/-- The event count of a phase. -/
def eventCount (phase : ℕ) : UInt64 :=
  if phase = settings.totalPhases then settings.events else settings.warmupEvents

end Config

/-- A plain variable: the value it holds and the phase it was written in. While a write is
under way it holds nothing. -/
abbrev Plain (α : Type) : Type := Option (ℕ × α)

structure RunControl where
  commandedPhase : Location ℕ
  readyPhase : Location ℕ
  completedPhase : Location ℕ
  phaseEventCount : Plain UInt64
  phaseMeasurement : Plain Measurement

/-- The ring: the values published so far, each with its phase, and the released position of
the consumer. -/
structure Stream where
  entries : List (ℕ × UInt64)
  consumerPosition : Location UInt64

def Stream.publishedPosition (stream : Stream) : UInt64 :=
  UInt64.ofNat stream.entries.length

/-! ### The threads -/

/-- Where the producer is in a phase. -/
inductive ProducerPc where
  | writeCount
  | writingCount
  | commanding
  | waitReady
  | starting
  | publishing
  | waitConsumed
  | waitCompleted
  | reading
  | validating
  | finished
  | thrown

structure Producer where
  phase : ℕ
  pc : ProducerPc
  viewReady : ℕ
  viewConsumer : ℕ
  viewCompleted : ℕ
  producerObserved : ℤ
  finalConsumerPosition : UInt64
  beginNs : ℤ
  endNs : ℤ
  published : UInt64
  current : Measurement
  measured : Measurement

/-- Where the consumer is in a phase. At `handling` the handler is still to be called on
`remaining` events of a batch. -/
inductive ConsumerPc where
  | waitCommand
  | reading
  | readying
  | looping
  | handling (remaining : ℕ)
  | releasing
  | writing
  | completing
  | finished

/-- The consumer. Its handle has taken `position` events. -/
structure Consumer where
  phase : ℕ
  pc : ConsumerPc
  viewCommanded : ℕ
  position : ℕ
  firstSequence : UInt64
  eventCount : UInt64
  current : Measurement

structure State where
  control : RunControl
  stream : Stream
  producer : Producer
  consumer : Consumer

/-- What may happen. A load names the place of the value it reads, a read of the clock the
time, and a call of the ring whether it publishes, or how many events it takes. -/
inductive Action where
  | beginCount
  | endCount
  | command
  | loadReady (place : ℕ)
  | start (now : ℤ)
  | tryPublishBatch (published : Bool)
  | loadConsumed (place : ℕ) (now : ℤ)
  | loadCompleted (place : ℕ)
  | readMeasurement
  | validate
  | loadCommanded (place : ℕ)
  | readCount
  | storeReady
  | consumeAvailable (count : ℕ)
  | handle
  | release
  | beginMeasurement
  | endMeasurement
  | complete

namespace Producer

variable (settings : Config) (pr : Producer)

/-- The head of the loop over the phases. -/
def enter (phase : ℕ) : Producer :=
  { pr with
    phase := phase
    pc := if phase ≤ settings.totalPhases then .writeCount else .finished }

/-- The head of the loop over the batches. -/
def publishHead : Producer :=
  { pr with
    pc := if pr.published < settings.eventCount pr.phase then .publishing else .waitConsumed }

/-- The writer of a batch. -/
def batch : List (ℕ × UInt64) :=
  (List.range settings.producerBatch).map fun index =>
    (pr.phase, pr.published + UInt64.ofNat index)

/-- The checks of a phase. -/
def Valid : Prop :=
  ¬(pr.current.durationNs ≤ 0 ∨
    pr.current.result.consumed ≠ settings.eventCount pr.phase ∨
    pr.current.result.checksum ≠ expectedChecksum (settings.eventCount pr.phase) ∨
    pr.current.result.orderValueMismatch ≠ 0)

instance : Decidable (pr.Valid settings) := inferInstanceAs (Decidable (¬_))

end Producer

/-- The head of the loop of the consumer over the phases. -/
def Consumer.enter (settings : Config) (c : Consumer) (phase : ℕ) : Consumer :=
  { c with
    phase := phase
    pc := if phase ≤ settings.totalPhases then .waitCommand else .finished }

namespace State

variable (settings : Config) (s : State)

/-! ### The producer -/

def beginCount : Option State :=
  match s.producer.pc with
  | .writeCount =>
      some { s with
        control := { s.control with phaseEventCount := none }
        producer := { s.producer with pc := .writingCount } }
  | _ => none

def endCount : Option State :=
  match s.producer.pc with
  | .writingCount =>
      some { s with
        control := { s.control with
          phaseEventCount := some (s.producer.phase, settings.eventCount s.producer.phase) }
        producer := { s.producer with pc := .commanding } }
  | _ => none

def command : Option State :=
  match s.producer.pc with
  | .commanding =>
      some { s with
        control := { s.control with
          commandedPhase := s.control.commandedPhase.store s.producer.phase }
        producer := { s.producer with pc := .waitReady } }
  | _ => none

def loadReady (place : ℕ) : Option State :=
  match s.producer.pc with
  | .waitReady =>
      (s.control.readyPhase.load s.producer.viewReady place).map fun phase =>
        { s with producer := { s.producer with
          viewReady := place
          pc := if phase = s.producer.phase then .starting else .waitReady } }
  | _ => none

def start (now : ℤ) : Option State :=
  match s.producer.pc with
  | .starting =>
      some { s with
        producer := { s.producer with
          producerObserved := settings.producerCpu
          finalConsumerPosition :=
            s.stream.publishedPosition + settings.eventCount s.producer.phase
          beginNs := now
          published := 0 }.publishHead settings }
  | _ => none

/-- A batch is published as a whole, or refused for now. -/
def tryPublishBatch (published : Bool) : Option State :=
  match s.producer.pc, published with
  | .publishing, false => some s
  | .publishing, true =>
      some { s with
        stream := { s.stream with entries := s.stream.entries ++ s.producer.batch settings }
        producer := { s.producer with
          published := s.producer.published + UInt64.ofNat settings.producerBatch
            }.publishHead settings }
  | _, _ => none

def loadConsumed (place : ℕ) (now : ℤ) : Option State :=
  match s.producer.pc with
  | .waitConsumed =>
      (s.stream.consumerPosition.load s.producer.viewConsumer place).map fun position =>
        if position < s.producer.finalConsumerPosition then
          { s with producer := { s.producer with viewConsumer := place } }
        else
          { s with producer := { s.producer with
            viewConsumer := place
            endNs := now
            pc := .waitCompleted } }
  | _ => none

def loadCompleted (place : ℕ) : Option State :=
  match s.producer.pc with
  | .waitCompleted =>
      (s.control.completedPhase.load s.producer.viewCompleted place).map fun phase =>
        { s with producer := { s.producer with
          viewCompleted := place
          pc := if phase = s.producer.phase then .reading else .waitCompleted } }
  | _ => none

/-- The copy of `phase_measurement`, completed with what the producer has measured. -/
def readMeasurement : Option State :=
  match s.producer.pc with
  | .reading =>
      s.control.phaseMeasurement.map fun (_, measurement) =>
        { s with producer := { s.producer with
          current := { measurement with
            durationNs := s.producer.endNs - s.producer.beginNs
            producerCpuObserved := s.producer.producerObserved }
          pc := .validating } }
  | _ => none

/-- The checks, after which the next phase is entered. -/
def validate : Option State :=
  match s.producer.pc with
  | .validating =>
      if s.producer.Valid settings then
        some { s with producer := { s.producer with
          measured :=
            if s.producer.phase = settings.totalPhases then s.producer.current
            else s.producer.measured }.enter settings (s.producer.phase + 1) }
      else some { s with producer := { s.producer with pc := .thrown } }
  | _ => none

/-! ### The consumer -/

def loadCommanded (place : ℕ) : Option State :=
  match s.consumer.pc with
  | .waitCommand =>
      (s.control.commandedPhase.load s.consumer.viewCommanded place).map fun phase =>
        { s with consumer := { s.consumer with
          viewCommanded := place
          pc := if phase = s.consumer.phase then .reading else .waitCommand } }
  | _ => none

def readCount : Option State :=
  match s.consumer.pc with
  | .reading =>
      s.control.phaseEventCount.map fun (_, eventCount) =>
        { s with consumer := { s.consumer with
          current := { Measurement.initial with consumerCpuObserved := settings.consumerCpu }
          firstSequence := UInt64.ofNat s.consumer.position
          eventCount := eventCount
          pc := .readying } }
  | _ => none

def storeReady : Option State :=
  match s.consumer.pc with
  | .readying =>
      some { s with
        control := { s.control with readyPhase := s.control.readyPhase.store s.consumer.phase }
        consumer := { s.consumer with pc := .looping } }
  | _ => none

/-- A call of `consume_available`, which takes any number of the events that are there, up to
the limit. -/
def consumeAvailable (count : ℕ) : Option State :=
  match s.consumer.pc with
  | .looping =>
      if s.consumer.current.result.consumed < s.consumer.eventCount ∧
          count ≤ settings.drainLimit ∧
          s.consumer.position + count ≤ s.stream.entries.length then
        some { s with consumer := { s.consumer with
          pc := if count = 0 then .looping else .handling count } }
      else none
  | _ => none

/-- A call of the handler. -/
def handle : Option State :=
  match s.consumer.pc with
  | .handling (remaining + 1) =>
      s.stream.entries[s.consumer.position]?.map fun (_, value) =>
        { s with consumer := { s.consumer with
          current := { s.consumer.current with
            result := s.consumer.current.result.handle s.consumer.firstSequence value
              (UInt64.ofNat s.consumer.position) }
          position := s.consumer.position + 1
          pc := if remaining = 0 then .releasing else .handling remaining } }
  | _ => none

def release : Option State :=
  match s.consumer.pc with
  | .releasing =>
      some { s with
        stream := { s.stream with
          consumerPosition :=
            s.stream.consumerPosition.store (UInt64.ofNat s.consumer.position) }
        consumer := { s.consumer with pc := .looping } }
  | _ => none

/-- The loop ends once enough events are consumed. -/
def beginMeasurement : Option State :=
  match s.consumer.pc with
  | .looping =>
      if s.consumer.current.result.consumed < s.consumer.eventCount then none
      else
        some { s with
          control := { s.control with phaseMeasurement := none }
          consumer := { s.consumer with pc := .writing } }
  | _ => none

def endMeasurement : Option State :=
  match s.consumer.pc with
  | .writing =>
      some { s with
        control := { s.control with
          phaseMeasurement := some (s.consumer.phase, s.consumer.current) }
        consumer := { s.consumer with pc := .completing } }
  | _ => none

def complete : Option State :=
  match s.consumer.pc with
  | .completing =>
      some { s with
        control := { s.control with
          completedPhase := s.control.completedPhase.store s.consumer.phase }
        consumer := s.consumer.enter settings (s.consumer.phase + 1) }
  | _ => none

def step : Action → Option State
  | .beginCount => s.beginCount
  | .endCount => s.endCount settings
  | .command => s.command
  | .loadReady place => s.loadReady place
  | .start now => s.start settings now
  | .tryPublishBatch published => s.tryPublishBatch settings published
  | .loadConsumed place now => s.loadConsumed place now
  | .loadCompleted place => s.loadCompleted place
  | .readMeasurement => s.readMeasurement
  | .validate => s.validate settings
  | .loadCommanded place => s.loadCommanded place
  | .readCount => s.readCount settings
  | .storeReady => s.storeReady
  | .consumeAvailable count => s.consumeAvailable settings count
  | .handle => s.handle
  | .release => s.release
  | .beginMeasurement => s.beginMeasurement
  | .endMeasurement => s.endMeasurement
  | .complete => s.complete settings

end State

/-- The runs of `run_all_phases`, from the start of the consumer thread. -/
def runAllPhases (settings : Config) : TransitionSystem State Action where
  initial :=
    { control :=
        { commandedPhase := Location.init 0
          readyPhase := Location.init 0
          completedPhase := Location.init 0
          phaseEventCount := some (0, 0)
          phaseMeasurement := some (0, Measurement.initial) }
      stream := { entries := [], consumerPosition := Location.init 0 }
      producer :=
        { phase := 1
          pc := .writeCount
          viewReady := 0
          viewConsumer := 0
          viewCompleted := 0
          producerObserved := -1
          finalConsumerPosition := 0
          beginNs := 0
          endNs := 0
          published := 0
          current := Measurement.initial
          measured := Measurement.initial }
      consumer :=
        { phase := 1
          pc := .waitCommand
          viewCommanded := 0
          position := 0
          firstSequence := 0
          eventCount := 0
          current := Measurement.initial } }
  step action s := s.step settings action

end PairedBenchmark
