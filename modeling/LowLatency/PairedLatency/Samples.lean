import LowLatency.Library.Span
import LowLatency.PairedLatency.InFlight

/-!
# The samples of the paired latency benchmark

The handler is called on every event once and in order, and writes the latency of an event at
its place among the samples. So a run that ends reports the latencies of its events, unless a
thread could not be pinned or a latency was not positive.
-/

open Disruptor (SequenceType Geometry toWord)

namespace PairedLatency

variable {settings : Config}

namespace State

variable {s s' : State}

/-- The latencies of the events handled so far. -/
def latencies (s : State) : List Int64 :=
  List.zipWith (fun receivedNs entry => receivedNs - entry.1.publishedNs) s.received
    (s.stream.consumer 0).handled

/-! ### What the handler gathers -/

/-- The samples and the counts are those of the events handled so far. -/
structure Gathered (settings : Config) (s : State) : Prop where
  received : s.received.length = (s.stream.consumer 0).handled.length
  samples : s.samples = s.latencies
    ++ List.replicate (settings.total.toNat - (s.stream.consumer 0).handled.length) 0
  consumed : s.result.consumed = UInt64.ofNat (s.stream.consumer 0).handled.length
  checksum : s.result.sequenceChecksum
    = UInt64.ofNat (PairedBenchmark.triangle (s.stream.consumer 0).handled.length)
  mismatch : s.result.orderMismatch = 0
  nonpositive : s.result.nonpositiveLatencyCount
    = UInt64.ofNat (s.latencies.countP fun latency => ¬latency > 0)

theorem Gathered.length_latencies (h : s.Gathered settings) :
  s.latencies.length = (s.stream.consumer 0).handled.length
  := by
  rw [latencies, List.length_zipWith, h.received, Nat.min_self]

/-- What is gathered does not depend on where the threads stand. -/
theorem Gathered.frame (h : s.Gathered settings)
    (hhandled : (s'.stream.consumer 0).handled = (s.stream.consumer 0).handled)
    (hsamples : s'.samples = s.samples) (hreceived : s'.received = s.received)
    (hconsumed : s'.result.consumed = s.result.consumed)
    (hchecksum : s'.result.sequenceChecksum = s.result.sequenceChecksum)
    (hmismatch : s'.result.orderMismatch = s.result.orderMismatch)
    (hcount : s'.result.nonpositiveLatencyCount = s.result.nonpositiveLatencyCount) :
  s'.Gathered settings
  := by
  have hlatencies : s'.latencies = s.latencies := by
    rw [latencies, latencies, hreceived, hhandled]
  constructor
  · rw [hreceived, hhandled, h.received]
  · rw [hsamples, hlatencies, hhandled, h.samples]
  · rw [hconsumed, hhandled, h.consumed]
  · rw [hchecksum, hhandled, h.checksum]
  · rw [hmismatch, h.mismatch]
  · rw [hcount, hlatencies, h.nonpositive]

/-- The handler gathers the next event. -/
theorem Gathered.handler (h : s.Gathered settings) (receivedNs : Int64) {input : Event}
    {stream : Disruptor.State SequenceType Event}
    (hhandled : (stream.consumer 0).handled = (s.stream.consumer 0).handled
      ++ [(input, BitVec.ofNat 64 (s.stream.consumer 0).handled.length)])
    (hlt : (s.stream.consumer 0).handled.length < settings.total.toNat) :
  Gathered settings
    { s.handler receivedNs input (UInt64.ofNat (s.stream.consumer 0).handled.length) with
      stream := stream }
  := by
  have htotal := settings.total_lt
  have hlength : (stream.consumer 0).handled.length
      = (s.stream.consumer 0).handled.length + 1 := by
    rw [hhandled, List.length_append, List.length_singleton]
  have hlatencies : List.zipWith (fun receivedNs (entry : Event × SequenceType) =>
        receivedNs - entry.1.publishedNs) (s.received ++ [receivedNs])
        (stream.consumer 0).handled
      = s.latencies ++ [receivedNs - input.publishedNs] := by
    rw [hhandled, List.zipWith_append h.received]
    rfl
  have hplace : s.result.consumed.toNat = s.latencies.length := by
    rw [h.consumed, h.length_latencies, UInt64.toNat_ofNat', Nat.mod_eq_of_lt (by omega)]
  constructor
  · simp only [State.handler, List.length_append, List.length_singleton, h.received, hlength]
  · change s.samples.set s.result.consumed.toNat (receivedNs - input.publishedNs)
      = List.zipWith _ (s.received ++ [receivedNs]) (stream.consumer 0).handled
        ++ List.replicate (settings.total.toNat - (stream.consumer 0).handled.length) 0
    rw [hlatencies, hlength, hplace, h.samples, ← h.length_latencies,
      Table.set_append_replicate]
    rw [h.length_latencies]
    apply hlt
  · simp only [State.handler, hlength, h.consumed, UInt64.ofNat_add]
    rfl
  · simp only [State.handler, hlength, h.checksum, PairedBenchmark.triangle_succ, UInt64.ofNat_add]
  · simp only [State.handler, h.mismatch, h.consumed, UInt64.xor_self, UInt64.or_self]
  · simp only [latencies, State.handler, hlatencies, List.countP_append, h.nonpositive,
      UInt64.ofNat_add, List.countP_singleton]
    congr 1
    split
    case isTrue hpos => simp only [hpos, not_true, decide_false, Bool.false_eq_true, if_false]; rfl
    case isFalse hnot => simp only [hnot, not_false_eq_true, decide_true, if_true]; rfl

/-! ### What the steps gather -/

variable {u : Disruptor.State ℕ Event}

/-- A step of the ring by the producer leaves what the consumer has handled. -/
theorem handled_of_producer {stream : Disruptor.State SequenceType Event}
    {a : Disruptor.ProducerAction Event}
    (hstream : s.stream.step geometry.wrapping geometry (.producer a) = some stream) :
  (stream.consumer 0).handled = (s.stream.consumer 0).handled
  := by
  obtain ⟨p, -, rfl⟩ := Disruptor.State.step_producer.mp hstream
  rfl

theorem Gathered.afterPublish (h : s.Gathered settings) {published : ℕ}
    {stream : Disruptor.State SequenceType Event}
    (hhandled : (stream.consumer 0).handled = (s.stream.consumer 0).handled) :
  (s.afterPublish published stream).Gathered settings
  := by
  rw [State.afterPublish]
  split
  · split
    · exact h.frame hhandled rfl rfl rfl rfl rfl rfl
    · exact h.frame hhandled rfl rfl rfl rfl rfl rfl
  · exact h.frame hhandled rfl rfl rfl rfl rfl rfl

theorem Gathered.afterFailed (h : s.Gathered settings) {place : ℕ} {next : ProducerPlace}
    {failed : Bool} :
  (s.afterFailed place next failed).Gathered settings
  := by
  rw [State.afterFailed]
  split
  · exact h.frame rfl rfl rfl rfl rfl rfl rfl
  · exact h.frame rfl rfl rfl rfl rfl rfl rfl

/-- The main thread leaves what is gathered. -/
theorem Gathered.stepProducer (h : s.Gathered settings) {place : ℕ} {now : Int64}
    (hstep : s.stepProducer settings place now = some s') :
  s'.Gathered settings
  := by
  rw [State.stepProducer] at hstep
  split at hstep
  case h_1 =>
    obtain ⟨ready, -, rfl⟩ := Option.map_eq_some_iff.mp hstep
    exact h.frame rfl rfl rfl rfl rfl rfl rfl
  case h_2 =>
    obtain ⟨failed, -, rfl⟩ := Option.map_eq_some_iff.mp hstep
    apply h.afterFailed
  case h_3 =>
    obtain rfl := Option.some.inj hstep
    exact h.frame rfl rfl rfl rfl rfl rfl rfl
  case h_4 =>
    obtain ⟨stream, hstream, rfl⟩ := Option.map_eq_some_iff.mp hstep
    apply h.afterPublish (handled_of_producer hstream)
  case h_5 =>
    split at hstep
    case isTrue =>
      obtain ⟨stream, hstream, rfl⟩ := Option.map_eq_some_iff.mp hstep
      apply h.afterPublish (handled_of_producer hstream)
    case isFalse => cases hstep
  case h_6 =>
    obtain ⟨failed, -, rfl⟩ := Option.map_eq_some_iff.mp hstep
    apply h.afterFailed
  case h_7 =>
    obtain ⟨v, -, rfl⟩ := Option.map_eq_some_iff.mp hstep
    rw [State.afterPosition]
    split
    · exact h.frame rfl rfl rfl rfl rfl rfl rfl
    · exact h.frame rfl rfl rfl rfl rfl rfl rfl
  case h_8 =>
    obtain ⟨failed, -, rfl⟩ := Option.map_eq_some_iff.mp hstep
    apply h.afterFailed
  case h_9 =>
    obtain rfl := Option.some.inj hstep
    exact h.frame rfl rfl rfl rfl rfl rfl rfl
  case h_10 =>
    split at hstep
    case h_1 =>
      obtain rfl := Option.some.inj hstep
      exact h.frame rfl rfl rfl rfl rfl rfl rfl
    case h_2 => cases hstep
  case h_11 =>
    split at hstep
    case h_1 =>
      obtain rfl := Option.some.inj hstep
      exact h.frame rfl rfl rfl rfl rfl rfl rfl
    case h_2 => cases hstep
  case h_12 => cases hstep

/-- What is handled is the beginning of what is written, each event with its sequence. -/
theorem Ring.handled_take (h : s.Ring settings u) :
  (s.stream.consumer 0).handled
      = (Disruptor.stream geometry.wrapping 0 s.stream.producer.written).take
          (s.stream.consumer 0).handled.length
    ∧ (s.stream.consumer 0).handled.length ≤ settings.total.toNat
  := by
  obtain ⟨-, hle, htake⟩ := h.handled_eq
  have hcurrent := h.standing.current_le
  use htake
  omega

/-- The sequence of the last event handled is the number of those before it. -/
theorem Ring.sequence_eq (h : s.Ring settings u) {entries : List (Event × SequenceType)}
    {entry : Event × SequenceType} (hhandled : (s.stream.consumer 0).handled = entries ++ [entry]) :
  entry.2 = BitVec.ofNat 64 entries.length ∧ entries.length < settings.total.toNat
  := by
  have hcurrent := h.standing.current_le
  rw [← h.stream] at hhandled
  obtain ⟨-, hsequence, hlt⟩ := h.inv.handled_last zero_lt_consumerCount hhandled
  use hsequence
  omega

theorem Gathered.afterConsume (h : s.Gathered settings)
    {stream : Disruptor.State SequenceType Event}
    (hhandled : (stream.consumer 0).handled = (s.stream.consumer 0).handled) :
  (s.afterConsume settings stream).Gathered settings
  := by
  rw [State.afterConsume]
  split
  · split
    · exact h.frame hhandled rfl rfl rfl rfl rfl rfl
    · exact h.frame hhandled rfl rfl rfl rfl rfl rfl
  · exact h.frame hhandled rfl rfl rfl rfl rfl rfl

/-- A step of the ring by the consumer that begins a call, or makes the handle. -/
theorem handled_of_consumer {stream : Disruptor.State SequenceType Event}
    {a : Disruptor.ConsumerAction} (ha : a = .makeConsumer ∨ a = .consumeHandle 1)
    (hstream : s.stream.step geometry.wrapping geometry (.consumer 0 a) = some stream) :
  (stream.consumer 0).handled = (s.stream.consumer 0).handled
  := by
  obtain ⟨c, hc, rfl⟩ := Disruptor.State.step_consumer.mp hstream
  simp only [Function.update_self]
  rcases ha with rfl | rfl
  · simp only [Disruptor.Consumer.step] at hc
    split at hc
    case h_1 =>
      split_ifs at hc
      obtain rfl := Option.some.inj hc
      rfl
    case h_2 => cases hc
  · simp only [Disruptor.Consumer.step] at hc
    split at hc
    case h_1 =>
      split_ifs at hc
      all_goals
        obtain rfl := Option.some.inj hc
        rfl
    case h_2 => cases hc

/-- A step of a call gathers what it handles. -/
theorem Gathered.resume (h : s.Gathered settings) {place : ℕ} {now : Int64}
    {stream : Disruptor.State SequenceType Event}
    (hstream : s.stream.step geometry.wrapping geometry (.consumer 0 (.resume place)) = some stream)
    (hring : ((s.handled now stream).afterConsume settings stream).Ring settings u) :
  ((s.handled now stream).afterConsume settings stream).Gathered settings
  := by
  have hafter := (afterConsume_stream settings (s.handled now stream) stream).1
  obtain ⟨c, hc, hs'⟩ := Disruptor.State.step_consumer.mp hstream
  have hconsumer : stream.consumer 0 = c := by
    rw [← hs']
    simp only [Function.update_self]
  rcases Disruptor.Consumer.handled_resume hc with
    ⟨first, count, index, entry, hpc, hhandled⟩ | ⟨hpc, hhandled⟩
  · rw [← hconsumer] at hhandled
    have hsequence := hring.sequence_eq (by rw [hafter]; apply hhandled)
    obtain ⟨input, sequence⟩ := entry
    obtain ⟨rfl, hlt⟩ := hsequence
    have hlast : (stream.consumer 0).handled.getLast?
        = some (input, BitVec.ofNat 64 (s.stream.consumer 0).handled.length) := by
      rw [hhandled, List.getLast?_concat]
    have hgathered := h.handler now hhandled hlt
    have hcalled : s.handled now stream
        = s.handler now input (UInt64.ofNat (s.stream.consumer 0).handled.length) := by
      rw [State.handled, hpc, hlast]
      rfl
    rw [hcalled, State.afterConsume]
    split
    · split
      · exact hgathered.frame rfl rfl rfl rfl rfl rfl rfl
      · exact hgathered.frame rfl rfl rfl rfl rfl rfl rfl
    · exact hgathered.frame rfl rfl rfl rfl rfl rfl rfl
  · rw [← hconsumer] at hhandled
    have hcalled : s.handled now stream = s := by
      rw [State.handled]
      split
      case h_1 first count index input sequence hhandle hlast =>
        cases hpc first count index hhandle
      case h_2 => rfl
    rw [hcalled]
    apply h.afterConsume hhandled

/-- The steps of the consumer thread gather what they handle. -/
theorem Gathered.stepConsumer (h : s.Gathered settings) (hring : s.Ring settings u) {place : ℕ}
    {now : Int64} (hstep : s.stepConsumer settings place now = some s') :
  s'.Gathered settings
  := by
  obtain ⟨u', hring'⟩ := hring.stepConsumer hstep
  rw [State.stepConsumer] at hstep
  split at hstep
  case h_1 =>
    obtain ⟨stream, hstream, rfl⟩ := Option.map_eq_some_iff.mp hstep
    exact h.frame (handled_of_consumer (Or.inl rfl) hstream) rfl rfl rfl rfl rfl rfl
  case h_2 =>
    obtain rfl := Option.some.inj hstep
    exact h.frame rfl rfl rfl rfl rfl rfl rfl
  case h_3 =>
    obtain rfl := Option.some.inj hstep
    exact h.frame rfl rfl rfl rfl rfl rfl rfl
  case h_4 =>
    obtain ⟨stream, hstream, rfl⟩ := Option.map_eq_some_iff.mp hstep
    apply h.afterConsume (handled_of_consumer (Or.inr rfl) hstream)
  case h_5 =>
    obtain ⟨stream, hstream, rfl⟩ := Option.map_eq_some_iff.mp hstep
    apply h.resume hstream hring'
  case h_6 =>
    obtain ⟨failed, -, rfl⟩ := Option.map_eq_some_iff.mp hstep
    exact h.frame rfl rfl rfl rfl rfl rfl rfl
  case h_7 =>
    obtain rfl := Option.some.inj hstep
    exact h.frame rfl rfl rfl rfl rfl rfl rfl
  case h_8 => cases hstep

/-- Nothing is gathered when the threads begin. -/
theorem gathered_init (settings : Config) :
  (State.init settings).Gathered settings
  := by
  constructor
  · rfl
  · rfl
  · rfl
  · rfl
  · rfl
  · rfl

end State

end PairedLatency
