import LowLatency.LatencyBenchmark.BatchesInFlight
import LowLatency.LatencyBenchmark.BlockingExchange
import LowLatency.PairedBenchmark.Validation

/-!
# What the consumers of the ring gather

The handler of each consumer is called on every event once and in order, finds the payload and the
sequence it expects, and writes the latency of the event at its place of the row of that consumer.
So a run that ends reports the latencies of all consumers, and that they are correct.
-/

open Disruptor (SequenceType Geometry toWord)
open PairedBenchmark (triangle triangle_succ)

namespace LatencyBenchmark

namespace Harness

variable {settings : Settings} {s s' : Harness settings}
  {u u' : Disruptor.State ℕ (Event settings.payloadSize)} {index index' : ℕ}

/-! ### What is gathered -/

/-- The latencies of the events which consumer `index` has handled. -/
def latencies (s : Harness settings) (index : ℕ) : List Int64 :=
  LatencyBenchmark.latencies (s.reader index).received
    ((s.stream.consumer index).handled.map fun entry => entry.1.publishedAt)

/-- The locals of consumer `index` and its row of the samples are those of the events it has
handled. -/
structure Gathered (s : Harness settings) (index : ℕ) : Prop where
  received : (s.reader index).received.length = (s.stream.consumer index).handled.length
  samples : Recorded (Table.row sampleCount index s.samples) (s.latencies index)
  checksum : (s.reader index).checksum
    = UInt64.ofNat (triangle (s.stream.consumer index).handled.length)
  expectedSequence : (s.reader index).expectedSequence
    = UInt64.ofNat (s.stream.consumer index).handled.length
  ordered : (s.reader index).ordered = true

/-- What the locals are that the handler changes. -/
structure SameLocals (reader reader' : Reader) : Prop where
  received : reader'.received = reader.received
  checksum : reader'.checksum = reader.checksum
  expectedSequence : reader'.expectedSequence = reader.expectedSequence
  ordered : reader'.ordered = reader.ordered

theorem Gathered.frame (h : s.Gathered index)
    (hhandled : (s'.stream.consumer index).handled = (s.stream.consumer index).handled)
    (hlocals : SameLocals (s.reader index) (s'.reader index))
    (hsamples : Table.row sampleCount index s'.samples = Table.row sampleCount index s.samples) :
  s'.Gathered index
  := by
  have hlatencies : s'.latencies index = s.latencies index := by
    rw [latencies, latencies, hlocals.received, hhandled]
  constructor
  · rw [hlocals.received, hhandled, h.received]
  · rw [hsamples, hlatencies]
    apply h.samples
  · rw [hlocals.checksum, hhandled, h.checksum]
  · rw [hlocals.expectedSequence, hhandled, h.expectedSequence]
  · rw [hlocals.ordered, h.ordered]

theorem Gathered.length_latencies (h : s.Gathered index) :
  (s.latencies index).length = (s.stream.consumer index).handled.length
  := by
  rw [latencies, LatencyBenchmark.latencies, List.length_zipWith, List.length_map, h.received,
    Nat.min_self]

/-- The handler gathers the next event. -/
theorem Gathered.handler (h : s.Gathered index) (now : Int64) {input : Event settings.payloadSize}
    {stream : Disruptor.State SequenceType (Event settings.payloadSize)}
    (hhandled : (stream.consumer index).handled = (s.stream.consumer index).handled
      ++ [(input, BitVec.ofNat 64 (s.stream.consumer index).handled.length)])
    (hlt : (s.stream.consumer index).handled.length < total)
    (hpayload : payloadIsCorrect input
      (UInt64.ofNat (s.stream.consumer index).handled.length) = true) :
  Gathered
    { s.handler index now input (UInt64.ofNat (s.stream.consumer index).handled.length) with
      stream := stream } index
  := by
  have htotal : total < 2 ^ 64 := by decide
  have hlength : (stream.consumer index).handled.length
      = (s.stream.consumer index).handled.length + 1 := by
    rw [hhandled, List.length_append, List.length_singleton]
  have hsequence : (UInt64.ofNat (s.stream.consumer index).handled.length).toNat
      = (s.latencies index).length := by
    rw [UInt64.toNat_ofNat', Nat.mod_eq_of_lt (by omega), h.length_latencies]
  constructor
  · simp only [Harness.handler, Function.update_self, List.length_append, List.length_singleton,
      h.received, hlength]
  · have hlatencies : LatencyBenchmark.latencies ((s.reader index).received ++ [now])
          ((stream.consumer index).handled.map fun entry => entry.1.publishedAt)
        = s.latencies index ++ [now - input.publishedAt] := by
      rw [hhandled, List.map_append, LatencyBenchmark.latencies, List.zipWith_append]
      · rfl
      · rw [List.length_map, h.received]
    have hrow : Table.row sampleCount index
          (s.handler index now input
            (UInt64.ofNat (s.stream.consumer index).handled.length)).samples
        = State.record (Table.row sampleCount index s.samples) (s.latencies index).length
          (now - input.publishedAt) := by
      simp only [Harness.handler, State.record, hsequence]
      split
      · apply Table.row_set_self
      · rfl
    simp only [latencies, Harness.handler, Function.update_self, hlatencies]
    simp only [Harness.handler] at hrow
    rw [hrow]
    apply h.samples.record
    rw [h.length_latencies]
    apply hlt
  · simp only [Harness.handler, Function.update_self, hlength, h.checksum, triangle_succ,
      UInt64.ofNat_add]
  · simp only [Harness.handler, Function.update_self, hlength, h.expectedSequence,
      UInt64.ofNat_add]
    rfl
  · simp only [Harness.handler, Function.update_self, h.ordered, h.expectedSequence, hpayload,
      beq_self_eq_true, Bool.and_self]

/-- The handler of a consumer leaves what another one gathers. -/
theorem Gathered.handler_other (h : s.Gathered index) (hne : index ≠ index')
    (now : Int64) (input : Event settings.payloadSize) {sequence : UInt64}
    (hlt : sequence.toNat < total)
    {stream : Disruptor.State SequenceType (Event settings.payloadSize)}
    (hhandled : (stream.consumer index).handled = (s.stream.consumer index).handled) :
  Gathered { s.handler index' now input sequence with stream := stream } index
  := by
  apply h.frame hhandled
  · simp only [Harness.handler, Function.update_of_ne hne]
    exact ⟨rfl, rfl, rfl, rfl⟩
  · simp only [Harness.handler]
    split
    case isTrue hge =>
      rw [total] at hlt
      apply Table.row_set_of_ne _ (by omega) hne
    case isFalse => rfl

/-! ### Where the consumers stand -/

theorem expected_eq :
  expected = UInt64.ofNat (triangle total)
  := by
  rw [PairedBenchmark.triangle_eq]
  decide

/-- Where a consumer stands tells what it knows of the events it has released. -/
def Seat (s : Harness settings) (u : Disruptor.State ℕ (Event settings.payloadSize))
    (index : ℕ) : ReaderPlace → Prop
  | .ready | .waitStart => (u.released index).current = 0
  | .consume | .consuming => (s.reader index).consumed = (u.released index).current
  | .finished => total ≤ (u.released index).current ∧ s.checksums[index]? = some expected

/-- Which threads the main thread has joined, by where it stands. -/
def Joined (s : Harness settings) : PublisherPlace → Prop
  | .joining index => ∀ index' < index, (s.reader index').place = .finished
  | .finished correct =>
      (∀ index < settings.consumerCount, (s.reader index).place = .finished) ∧ correct = true
  | _ => True

/-- What holds at every reachable state. -/
structure Sound (s : Harness settings) (u : Disruptor.State ℕ (Event settings.payloadSize)) :
    Prop where
  ring : s.Ring u
  gathered : ∀ index < settings.consumerCount, s.Gathered index
  seat : ∀ index < settings.consumerCount, s.Seat u index (s.reader index).place
  checksums : s.checksums.length = settings.consumerCount
  joined : s.Joined s.place

theorem Standing.current_le {place : PublisherPlace} (h : Standing settings u place) :
  u.producer.published.current ≤ total
  := by
  cases place with
  | waitReady | starting =>
      rw [h.2]
      apply Nat.zero_le
  | publish published =>
      obtain ⟨-, hpublished, hlt, -⟩ := h
      omega
  | publishing published =>
      obtain ⟨hpublishing, -, hlt, -⟩ := h
      have hpublished := hpublishing.published
      omega
  | waitReleased published index =>
      obtain ⟨-, hpublished, hle, -⟩ := h
      omega
  | joining index | finished correct =>
      rw [h.2.1]

/-- What is handled is the beginning of what is written, and is beyond what is released by the
batch the consumer stands in. -/
theorem Ring.handled_eq (h : s.Ring u) (hindex : index < settings.consumerCount) :
  (s.stream.consumer index).handled.length
      = (u.released index).current + Disruptor.Consumer.done (u.consumer index).pc
    ∧ (s.stream.consumer index).handled.length ≤ total
    ∧ (s.stream.consumer index).handled
        = (Disruptor.stream settings.geometry.wrapping 0 s.stream.producer.written).take
          (s.stream.consumer index).handled.length
  := by
  have hcurrent := h.standing.current_le
  obtain ⟨hlength, hle, htake⟩ := h.inv.handled_eq hindex
  rw [h.stream] at hlength hle htake
  exact ⟨hlength, Nat.le_trans hle hcurrent, htake⟩

/-- A consumer that has ended its loop has handled all events. -/
theorem Sound.handled_of_finished (h : s.Sound u) (hindex : index < settings.consumerCount)
    (hplace : (s.reader index).place = .finished) :
  (s.stream.consumer index).handled.length = total
  := by
  obtain ⟨hreleased, -⟩ : s.Seat u index .finished := hplace ▸ h.seat index hindex
  obtain ⟨hlength, hle, -⟩ := h.ring.handled_eq hindex
  omega

/-! ### The steps of the main thread -/

/-- When all threads are joined, the checksums are as expected. -/
theorem Sound.correct (h : s.Sound u)
    (hfinished : ∀ index < settings.consumerCount, (s.reader index).place = .finished) :
  s.correct = true
  := by
  apply List.all_eq_true.mpr
  intro checksum hmem
  obtain ⟨index, hlt, hget⟩ := List.mem_iff_getElem.mp hmem
  have hindex : index < settings.consumerCount := h.checksums ▸ hlt
  obtain ⟨-, hchecksum⟩ : s.Seat u index .finished := hfinished index hindex ▸ h.seat index hindex
  rw [List.getElem?_eq_getElem hlt, hget] at hchecksum
  obtain rfl := Option.some.inj hchecksum
  apply beq_self_eq_true

/-- What a step of the main thread leaves. -/
structure Frame (s s' : Harness settings) : Prop where
  reader : s'.reader = s.reader
  samples : s'.samples = s.samples
  checksums : s'.checksums = s.checksums
  consumer : s'.stream.consumer = s.stream.consumer

theorem frame_afterPublish (s : Harness settings) (published : ℕ)
    {stream : Disruptor.State SequenceType (Event settings.payloadSize)}
    (hconsumer : stream.consumer = s.stream.consumer) :
  s.Frame (s.afterPublish published stream)
  := by
  rw [Harness.afterPublish]
  split
  · split
    · exact ⟨rfl, rfl, rfl, hconsumer⟩
    · exact ⟨rfl, rfl, rfl, hconsumer⟩
  · exact ⟨rfl, rfl, rfl, hconsumer⟩

/-- A step of the ring by the producer leaves the consumers. -/
theorem consumer_of_producer {stream : Disruptor.State SequenceType (Event settings.payloadSize)}
    {a : Disruptor.ProducerAction (Event settings.payloadSize)}
    (hstream : s.stream.step settings.geometry.wrapping settings.geometry (.producer a)
      = some stream) :
  stream.consumer = s.stream.consumer
  := by
  obtain ⟨p, -, rfl⟩ := Disruptor.State.step_producer.mp hstream
  rfl

theorem frame_stepPublisher {place : ℕ} {now : ℕ → Int64}
    (hstep : s.stepPublisher place now = some s') :
  s.Frame s'
  := by
  rw [Harness.stepPublisher] at hstep
  split at hstep
  case h_1 =>
    obtain ⟨ready, -, rfl⟩ := Option.map_eq_some_iff.mp hstep
    exact ⟨rfl, rfl, rfl, rfl⟩
  case h_2 =>
    obtain rfl := Option.some.inj hstep
    exact ⟨rfl, rfl, rfl, rfl⟩
  case h_3 published hplace =>
    obtain ⟨stream, hstream, rfl⟩ := Option.map_eq_some_iff.mp hstep
    apply frame_afterPublish s published (consumer_of_producer hstream)
  case h_4 published hplace =>
    obtain ⟨stream, hstream, rfl⟩ := Option.map_eq_some_iff.mp hstep
    apply frame_afterPublish s published (consumer_of_producer hstream)
  case h_5 =>
    obtain ⟨word, -, rfl⟩ := Option.map_eq_some_iff.mp hstep
    rw [Harness.afterPosition]
    dsimp only
    split
    · exact ⟨rfl, rfl, rfl, rfl⟩
    · exact ⟨rfl, rfl, rfl, rfl⟩
  case h_6 =>
    split at hstep
    case h_1 =>
      obtain rfl := Option.some.inj hstep
      exact ⟨rfl, rfl, rfl, rfl⟩
    case h_2 => cases hstep
  case h_7 => cases hstep

theorem joined_nextBatch (s : Harness settings) (published : ℕ) :
  s.Joined (nextBatch published)
  := by
  rw [nextBatch]
  split
  · trivial
  · intro index hindex
    cases hindex

theorem joined_nextWait (s : Harness settings) (published index : ℕ) :
  s.Joined (nextWait settings published index)
  := by
  rw [nextWait]
  split
  · trivial
  · apply joined_nextBatch

theorem joined_afterPublish (s : Harness settings) (published : ℕ)
    (stream : Disruptor.State SequenceType (Event settings.payloadSize)) :
  (s.afterPublish published stream).Joined (s.afterPublish published stream).place
  := by
  rw [Harness.afterPublish]
  split
  · split
    · apply joined_nextWait
    · trivial
  · trivial

/-- The main thread joins the threads one after another. -/
theorem Sound.joined_stepPublisher (h : s.Sound u) {place : ℕ} {now : ℕ → Int64}
    (hstep : s.stepPublisher place now = some s') :
  s'.Joined s'.place
  := by
  rw [Harness.stepPublisher] at hstep
  split at hstep
  case h_1 =>
    obtain ⟨ready, -, rfl⟩ := Option.map_eq_some_iff.mp hstep
    dsimp only
    split
    · trivial
    · trivial
  case h_2 =>
    obtain rfl := Option.some.inj hstep
    dsimp only
    apply joined_nextBatch
  case h_3 =>
    obtain ⟨stream, -, rfl⟩ := Option.map_eq_some_iff.mp hstep
    apply joined_afterPublish
  case h_4 =>
    obtain ⟨stream, -, rfl⟩ := Option.map_eq_some_iff.mp hstep
    apply joined_afterPublish
  case h_5 published index hplace =>
    obtain ⟨word, -, rfl⟩ := Option.map_eq_some_iff.mp hstep
    rw [Harness.afterPosition]
    dsimp only
    split
    · dsimp only
      rw [hplace]
      trivial
    · dsimp only
      apply joined_nextWait
  case h_6 index hplace =>
    split at hstep
    case h_1 hfinished =>
      obtain rfl := Option.some.inj hstep
      have hjoined : s.Joined (.joining index) := hplace ▸ h.joined
      have hbefore (index' : ℕ) (hlt : index' < index + 1) :
          (s.reader index').place = .finished := by
        rcases Nat.lt_succ_iff_lt_or_eq.mp hlt with hlt | rfl
        · apply hjoined index' hlt
        · apply hfinished
      dsimp only
      rw [nextJoin]
      split
      case isTrue => apply hbefore
      case isFalse hge =>
        have hall (index' : ℕ) (hlt : index' < settings.consumerCount) :
            (s.reader index').place = .finished := hbefore index' (by omega)
        use hall
        apply h.correct hall
    case h_2 => cases hstep
  case h_7 => cases hstep

/-- Where a consumer stands depends on its locals, its checksum and what it has released. -/
theorem Seat.congr {place : ReaderPlace} (h : s.Seat u index place)
    (hconsumed : (s'.reader index).consumed = (s.reader index).consumed)
    (hchecksum : s'.checksums[index]? = s.checksums[index]?)
    (hreleased : u'.released index = u.released index) :
  s'.Seat u' index place
  := by
  cases place with
  | ready | waitStart =>
      rw [Seat, hreleased]
      apply h
  | consume | consuming =>
      rw [Seat, hreleased, hconsumed]
      apply h
  | finished =>
      rw [Seat, hreleased, hchecksum]
      apply h

/-- The steps of the main thread keep the invariant. -/
theorem Sound.stepPublisher (h : s.Sound u) {place : ℕ} {now : ℕ → Int64}
    (hstep : s.stepPublisher place now = some s') :
  ∃ u', s'.Sound u'
  := by
  obtain ⟨u', hring, hconsumer⟩ := h.ring.stepPublisher hstep
  have hframe := frame_stepPublisher hstep
  use u'
  constructor
  · apply hring
  · intro index hindex
    apply (h.gathered index hindex).frame
    · rw [hframe.consumer]
    · rw [hframe.reader]
      exact ⟨rfl, rfl, rfl, rfl⟩
    · rw [hframe.samples]
  · intro index hindex
    rw [hframe.reader]
    apply (h.seat index hindex).congr
    · rw [hframe.reader]
    · rw [hframe.checksums]
    · rw [Disruptor.State.released, Disruptor.State.released, hconsumer]
  · rw [hframe.checksums]
    apply h.checksums
  · apply h.joined_stepPublisher hstep

/-! ### The steps of a consumer thread -/

/-- What changes where the locals of consumer `index` are moved to another place. -/
structure Moves (s : Harness settings) (index : ℕ) (s' : Harness settings) : Prop where
  place : s'.place = s.place
  samples : s'.samples = s.samples
  locals : SameLocals (s.reader index) (s'.reader index)
  reader : ∀ index', index' ≠ index → s'.reader index' = s.reader index'
  checksums : ∀ index', index' ≠ index → s'.checksums[index']? = s.checksums[index']?
  length : s'.checksums.length = s.checksums.length

theorem moves_setReader {stream : Disruptor.State SequenceType (Event settings.payloadSize)}
    {start : Location Bool} {ready : Location ℕ} {reader : Reader}
    (hlocals : SameLocals (s.reader index) reader) :
  s.Moves index
    (setReader { s with stream := stream, start := start, ready := ready } index reader)
  := by
  constructor
  · rfl
  · rfl
  · simp only [setReader, Function.update_self]
    apply hlocals
  · intro index' hne
    simp only [setReader, Function.update_of_ne hne]
  · intro index' hne
    rfl
  · rfl

theorem moves_nextConsume (s : Harness settings) (index consumed : ℕ) :
  s.Moves index (s.nextConsume index consumed)
  := by
  rw [nextConsume]
  split
  · exact moves_setReader ⟨rfl, rfl, rfl, rfl⟩
  · constructor
    · rfl
    · rfl
    · simp only [setReader, Function.update_self]
      exact ⟨rfl, rfl, rfl, rfl⟩
    · intro index' hne
      simp only [setReader, Function.update_of_ne hne]
    · intro index' hne
      apply List.getElem?_set_ne hne.symm
    · apply List.length_set

theorem stream_nextConsume (s : Harness settings) (index consumed : ℕ) :
  (s.nextConsume index consumed).stream = s.stream
  := by
  rw [nextConsume]
  split
  · rfl
  · rfl

/-- At the head of its loop a consumer has counted the events it has released, and when it leaves
the loop its checksum is as expected. -/
theorem seat_nextConsume {consumed : ℕ} (hgathered : s.Gathered index)
    (hindex : index < s.checksums.length) (hreleased : (u.released index).current = consumed)
    (hlength : consumed ≤ (s.stream.consumer index).handled.length)
    (hle : (s.stream.consumer index).handled.length ≤ total) :
  (s.nextConsume index consumed).Seat u index ((s.nextConsume index consumed).reader index).place
  := by
  rw [nextConsume]
  split
  case isTrue =>
    simp only [Seat, setReader, Function.update_self, hreleased]
  case isFalse hnot =>
    have htotal : (s.stream.consumer index).handled.length = total := by omega
    simp only [Seat, setReader, Function.update_self]
    constructor
    · omega
    · rw [List.getElem?_set_self hindex, if_pos hgathered.ordered, hgathered.checksum, htotal,
        expected_eq]

/-- A consumer thread keeps the invariant if it keeps its own part of it. -/
theorem Sound.of_moves (h : s.Sound u) (hplace : (s.reader index).place ≠ .finished)
    (hindex : index < settings.consumerCount) (hring : s'.Ring u') (hplace' : s'.place = s.place)
    (hreader : ∀ index', index' ≠ index → s'.reader index' = s.reader index')
    (hchecksums : ∀ index', index' ≠ index → s'.checksums[index']? = s.checksums[index']?)
    (hlength : s'.checksums.length = s.checksums.length)
    (hreleased : ∀ index', index' ≠ index → u'.released index' = u.released index')
    (hgathered : ∀ index' < settings.consumerCount, s'.Gathered index')
    (hseat : s'.Seat u' index (s'.reader index).place) :
  s'.Sound u'
  := by
  constructor
  · apply hring
  · apply hgathered
  · intro index' hindex'
    by_cases hne : index' = index
    · subst hne
      apply hseat
    · rw [hreader index' hne]
      apply (h.seat index' hindex').congr
      · rw [hreader index' hne]
      · apply hchecksums index' hne
      · apply hreleased index' hne
  · rw [hlength]
    apply h.checksums
  · -- the threads which are joined have no step
    have hstays (index' : ℕ) (hfinished : (s.reader index').place = .finished) :
        (s'.reader index').place = .finished := by
      have hne : index' ≠ index := by
        rintro rfl
        apply hplace hfinished
      rw [hreader index' hne, hfinished]
    have hjoined := h.joined
    rw [hplace']
    cases hs : s.place with
    | joining last =>
        rw [hs] at hjoined
        intro index' hlt
        apply hstays index' (hjoined index' hlt)
    | finished correct =>
        rw [hs] at hjoined
        cases hplace (hjoined.1 index hindex)
    | _ => trivial

/-- What every consumer has gathered is left where one of them only moves. -/
theorem Moves.gathered (hmoves : s.Moves index s') (hgathered : s.Gathered index')
    (hhandled : (s'.stream.consumer index').handled = (s.stream.consumer index').handled) :
  s'.Gathered index'
  := by
  apply hgathered.frame hhandled
  · by_cases hne : index' = index
    · subst hne
      apply hmoves.locals
    · rw [hmoves.reader index' hne]
      exact ⟨rfl, rfl, rfl, rfl⟩
  · rw [hmoves.samples]

/-- A thread that moves outside its calls. -/
theorem Sound.moves (h : s.Sound u) (hplace : (s.reader index).place ≠ .finished)
    (hindex : index < settings.consumerCount) (hmoves : s.Moves index s')
    (hstream : s'.stream = s.stream) (hseat : s'.Seat u index (s'.reader index).place) :
  s'.Sound u
  := by
  have hring : s'.Ring u := h.ring.move hstream (by rw [hmoves.place]; apply h.ring.standing)
  apply h.of_moves hplace hindex hring hmoves.place hmoves.reader hmoves.checksums hmoves.length
  · intro index' _
    rfl
  · intro index' hindex'
    apply hmoves.gathered (h.gathered index' hindex')
    rw [hstream]
  · apply hseat

/-- A step of the ring by consumer `index` leaves the other consumers. -/
theorem consumer_of_consumer {P : Type} {A : Disruptor.PositionArithmetic P} {g : Geometry}
    {t t' : Disruptor.State P (Event settings.payloadSize)} {a : Disruptor.ConsumerAction}
    (hstep : t.step A g (.consumer index a) = some t') {index' : ℕ} (hne : index' ≠ index) :
  t'.consumer index' = t.consumer index'
  := by
  obtain ⟨c, -, rfl⟩ := Disruptor.State.step_consumer.mp hstep
  simp only [Function.update_of_ne hne]

/-- A call of `consume_available` begins. -/
theorem begin_of_consume {P : Type} {A : Disruptor.PositionArithmetic P}
    {t t' : Disruptor.State P (Event settings.payloadSize)}
    (hindex : index < settings.consumerCount)
    (hstep : t.step A settings.geometry (.consumer index (.consume settings.batchSize))
      = some t') :
  (t'.consumer index).pc = .loadCursor settings.batchSize
    ∧ (t'.consumer index).released = (t.consumer index).released
    ∧ (t'.consumer index).handled = (t.consumer index).handled
    ∧ (t'.consumer index).handle = (t.consumer index).handle
  := by
  obtain ⟨c, hc, rfl⟩ := Disruptor.State.step_consumer.mp hstep
  have hpos := settings.batchSize_pos
  have hnot : ¬(index ≥ settings.geometry.consumerCount ∨ settings.batchSize = 0) := by
    have hcount : settings.geometry.consumerCount = settings.consumerCount := rfl
    omega
  simp only [Disruptor.Consumer.step, if_neg hnot] at hc
  split at hc
  case h_1 =>
    obtain rfl := Option.some.inj hc
    simp only [Function.update_self]
    exact ⟨rfl, rfl, rfl, rfl⟩
  case h_2 => cases hc

/-- A consumer calls `consume_available`. -/
theorem Sound.consume (h : s.Sound u) (hplace : (s.reader index).place = .consume)
    (hindex : index < settings.consumerCount)
    {stream : Disruptor.State SequenceType (Event settings.payloadSize)}
    (hstream : s.stream.step settings.geometry.wrapping settings.geometry
      (.consumer index (.consume settings.batchSize)) = some stream) :
  ∃ u', (s.afterConsume index stream).Sound u'
  := by
  obtain ⟨hpc, -, hhandled, -⟩ := begin_of_consume hindex hstream
  have hafter : s.afterConsume index stream
      = setReader { s with stream := stream } index
        { s.reader index with place := .consuming } := by
    rw [afterConsume, hpc]
  rw [hafter]
  have hmoves : s.Moves index
      (setReader { s with stream := stream } index { s.reader index with place := .consuming }) :=
    moves_setReader ⟨rfl, rfl, rfl, rfl⟩
  obtain ⟨u', hu', hring⟩ := h.ring.consumer_step hstream rfl hmoves.place
  obtain ⟨-, hreleased, -⟩ := begin_of_consume hindex hu'
  have hseat : s.Seat u index .consume := hplace ▸ h.seat index hindex
  use u'
  apply h.of_moves (by simp [hplace]) hindex hring hmoves.place hmoves.reader hmoves.checksums
    hmoves.length
  · intro index' hne
    rw [Disruptor.State.released, consumer_of_consumer hu' hne]
    rfl
  · intro index' hindex'
    apply hmoves.gathered (h.gathered index' hindex')
    by_cases hne : index' = index
    · subst hne
      apply hhandled
    · simp only [setReader, consumer_of_consumer hstream hne]
  · simp only [Seat, setReader, Function.update_self, Disruptor.State.released, hreleased]
    apply hseat

/-- A consumer after a step of its call is moved to another place. -/
theorem moves_afterConsume (s : Harness settings) (index : ℕ)
    (stream : Disruptor.State SequenceType (Event settings.payloadSize)) :
  Moves { s with stream := stream } index (s.afterConsume index stream)
    ∧ (s.afterConsume index stream).stream = stream
  := by
  rw [afterConsume]
  split
  · use moves_nextConsume _ index _
    apply stream_nextConsume
  · use moves_setReader ⟨rfl, rfl, rfl, rfl⟩
    rfl

/-- What a step of a call does beside the step of the ring: nothing, or the handler is called on the
next event. -/
inductive Calls (s : Harness settings) (index : ℕ) (now : Int64)
    (stream : Disruptor.State SequenceType (Event settings.payloadSize)) :
    Harness settings → Prop where
  | nothing
      (hhandled : (stream.consumer index).handled = (s.stream.consumer index).handled) :
      Calls s index now stream s
  | handler (input : Event settings.payloadSize)
      (hhandled : (stream.consumer index).handled = (s.stream.consumer index).handled
        ++ [(input, BitVec.ofNat 64 (s.stream.consumer index).handled.length)])
      (hlt : (s.stream.consumer index).handled.length < total)
      (hpayload : payloadIsCorrect input
        (UInt64.ofNat (s.stream.consumer index).handled.length) = true) :
      Calls s index now stream
        (s.handler index now input (UInt64.ofNat (s.stream.consumer index).handled.length))

theorem Ring.calls (h : s.Ring u) {place : ℕ} (now : Int64)
    (hindex : index < settings.consumerCount)
    {stream : Disruptor.State SequenceType (Event settings.payloadSize)}
    (hstream : s.stream.step settings.geometry.wrapping settings.geometry
      (.consumer index (.resume place)) = some stream) :
  s.Calls index now stream (s.handled index now stream)
  := by
  obtain ⟨c, hc, hs'⟩ := Disruptor.State.step_consumer.mp hstream
  have hconsumer : stream.consumer index = c := by
    rw [← hs']
    simp only [Function.update_self]
  obtain ⟨u', hu', hmap, hinv⟩ := h.stream_step hstream
  have hproducer : u'.producer = u.producer := by
    obtain ⟨c', -, rfl⟩ := Disruptor.State.step_consumer.mp hu'
    rfl
  rcases Disruptor.Consumer.handled_resume hc with
    ⟨first, count, place', entry, hpc, hhandled⟩ | ⟨hpc, hhandled⟩
  · rw [← hconsumer] at hhandled
    rw [← hmap] at hhandled
    obtain ⟨hwritten, hsequence, hlt⟩ := hinv.handled_last hindex hhandled
    rw [hmap] at hhandled
    rw [hproducer] at hwritten hlt
    have htotal := h.standing.current_le
    obtain ⟨input, sequence⟩ := entry
    obtain rfl : sequence = _ := hsequence
    have hlast : (stream.consumer index).handled.getLast?
        = some (input, BitVec.ofNat 64 (s.stream.consumer index).handled.length) := by
      rw [hhandled, List.getLast?_concat]
    have hcalled : s.handled index now stream = s.handler index now input
        (UInt64.ofNat (s.stream.consumer index).handled.length) := by
      rw [Harness.handled, hpc, hlast]
      rfl
    rw [hcalled]
    apply Calls.handler input hhandled
    · omega
    · apply h.stamped _ _ hwritten
  · rw [← hconsumer] at hhandled
    have hcalled : s.handled index now stream = s := by
      rw [Harness.handled]
      split
      case h_1 first count place' input sequence hhandle hlast =>
        cases hpc first count place' hhandle
      case h_2 => rfl
    rw [hcalled]
    apply Calls.nothing hhandled

variable {t : Harness settings} {now : Int64}
  {stream : Disruptor.State SequenceType (Event settings.payloadSize)}

/-- The handler leaves what belongs to the loop and to other threads. -/
theorem Calls.frame (h : s.Calls index now stream t) :
  t.place = s.place ∧ t.checksums = s.checksums
    ∧ (t.reader index).consumed = (s.reader index).consumed
    ∧ ∀ index', index' ≠ index → t.reader index' = s.reader index'
  := by
  cases h with
  | nothing hhandled => exact ⟨rfl, rfl, rfl, fun _ _ => rfl⟩
  | handler input hhandled hlt hpayload =>
      refine ⟨rfl, rfl, ?_, ?_⟩
      · simp only [Harness.handler, Function.update_self]
      · intro index' hne
        simp only [Harness.handler, Function.update_of_ne hne]

/-- A call of the handler gathers the next event, and leaves what the other consumers gather. -/
theorem Calls.gathered (h : s.Calls index now stream t) (hgathered : s.Gathered index')
    (hother : index' ≠ index →
      (stream.consumer index').handled = (s.stream.consumer index').handled) :
  Gathered { t with stream := stream } index'
  := by
  cases h with
  | nothing hhandled =>
      have hsame : (stream.consumer index').handled = (s.stream.consumer index').handled := by
        by_cases hne : index' = index
        · subst hne
          apply hhandled
        · apply hother hne
      exact hgathered.frame hsame ⟨rfl, rfl, rfl, rfl⟩ rfl
  | handler input hhandled hlt hpayload =>
      by_cases hne : index' = index
      · subst hne
        apply hgathered.handler now hhandled hlt hpayload
      · have htotal : total < 2 ^ 64 := by decide
        apply hgathered.handler_other hne now input _ (hother hne)
        rw [UInt64.toNat_ofNat', Nat.mod_eq_of_lt (by omega)]
        apply hlt

/-- A step of a call is inside the call, or the call returns what it has released. -/
theorem Ring.returned_resume (h : s.Ring u) {place : ℕ} (hindex : index < settings.consumerCount)
    (hu' : u.step settings.geometry.unbounded settings.geometry (.consumer index (.resume place))
      = some u') :
  (((u'.map toWord).consumer index).pc ≠ .idle
      ∧ (u'.released index).current = (u.released index).current)
    ∨ ((u'.map toWord).consumer index).pc = .idle
      ∧ (u'.released index).current = (u.released index).current
        + ((u'.map toWord).consumer index).returned.getLastD 0
  := by
  obtain ⟨c, hc, rfl⟩ := Disruptor.State.step_consumer.mp hu'
  simp only [Disruptor.State.map, Disruptor.State.released, Disruptor.Consumer.map,
    Function.update_self]
  rcases (h.inv.consumer index hindex).returned_resume hc with
    ⟨hpc, hreleased⟩ | ⟨hpc, count, hreturned, hreleased⟩
  · left
    constructor
    · intro hidle
      apply hpc
      cases hc' : c.pc with
      | idle => rfl
      | _ =>
          rw [hc'] at hidle
          cases hidle
    · rw [hreleased]
  · right
    constructor
    · rw [hpc]
      rfl
    · rw [hreturned, List.getLastD_concat, hreleased]

/-- Where a consumer stands after a step of its call. -/
theorem seat_afterConsume (hgathered : Gathered { t with stream := stream } index)
    (hindex : index < t.checksums.length)
    (hlength : (u.released index).current ≤ (stream.consumer index).handled.length)
    (hle : (stream.consumer index).handled.length ≤ total)
    (hreturned : ((stream.consumer index).pc ≠ .idle
        ∧ (u.released index).current = (t.reader index).consumed)
      ∨ (stream.consumer index).pc = .idle
        ∧ (u.released index).current
          = (t.reader index).consumed + (stream.consumer index).returned.getLastD 0) :
  (t.afterConsume index stream).Seat u index ((t.afterConsume index stream).reader index).place
  := by
  rcases hreturned with ⟨hpc, hreleased⟩ | ⟨hpc, hreleased⟩
  · have hafter : t.afterConsume index stream
        = setReader { t with stream := stream } index
          { t.reader index with place := .consuming } := by
      rw [afterConsume]
      split
      case h_1 hidle => cases hpc hidle
      case h_2 => rfl
    rw [hafter]
    simp only [Seat, setReader, Function.update_self, hreleased]
  · rw [afterConsume, hpc]
    apply seat_nextConsume hgathered hindex hreleased _ hle
    rw [← hreleased]
    apply hlength

/-- A step of `consume_available`, in which the handler may be called. -/
theorem Sound.consuming (h : s.Sound u) (hplace : (s.reader index).place = .consuming)
    (hindex : index < settings.consumerCount) {place : ℕ}
    (hstream : s.stream.step settings.geometry.wrapping settings.geometry
      (.consumer index (.resume place)) = some stream) :
  ∃ u', ((s.handled index now stream).afterConsume index stream).Sound u'
  := by
  have hseat : s.Seat u index .consuming := hplace ▸ h.seat index hindex
  have hcalls := h.ring.calls now hindex hstream
  generalize s.handled index now stream = t at hcalls ⊢
  obtain ⟨htplace, htchecksums, hconsumed, htreader⟩ := hcalls.frame
  obtain ⟨hmoves, hstream'⟩ := moves_afterConsume t index stream
  have hplace' : (t.afterConsume index stream).place = s.place := hmoves.place.trans htplace
  obtain ⟨u', hu', hring⟩ := h.ring.consumer_step hstream hstream' hplace'
  have hgathered (index' : ℕ) (hindex' : index' < settings.consumerCount) :
      Gathered { t with stream := stream } index' := by
    apply hcalls.gathered (h.gathered index' hindex')
    intro hne
    rw [consumer_of_consumer hstream hne]
  use u'
  apply h.of_moves (by simp [hplace]) hindex hring hplace'
  · intro index' hne
    rw [hmoves.reader index' hne]
    apply htreader index' hne
  · intro index' hne
    rw [hmoves.checksums index' hne]
    dsimp only
    rw [htchecksums]
  · rw [hmoves.length]
    dsimp only
    rw [htchecksums]
  · intro index' hne
    rw [Disruptor.State.released, consumer_of_consumer hu' hne]
    rfl
  · intro index' hindex'
    apply hmoves.gathered (hgathered index' hindex')
    rw [hstream']
  · obtain ⟨hlength, hle, -⟩ := hring.handled_eq hindex
    rw [hstream'] at hlength hle
    have hreturned := h.ring.returned_resume hindex hu'
    rw [hring.stream, hstream'] at hreturned
    have hlt : index < t.checksums.length := by
      rw [htchecksums, h.checksums]
      apply hindex
    apply seat_afterConsume (hgathered index hindex) hlt (by omega) hle
    rw [hconsumed, show (s.reader index).consumed = (u.released index).current from hseat]
    apply hreturned

/-- The steps of a consumer thread keep the invariant. -/
theorem Sound.stepReader (h : s.Sound u) {place : ℕ} (hindex : index < settings.consumerCount)
    (hstep : s.stepReader index place now = some s') :
  ∃ u', s'.Sound u'
  := by
  have hseat := h.seat index hindex
  rw [Harness.stepReader] at hstep
  cases hplace : (s.reader index).place with
  | ready =>
      rw [hplace] at hstep hseat
      obtain rfl := Option.some.inj hstep
      use u
      refine h.moves (by simp [hplace]) hindex (moves_setReader ⟨rfl, rfl, rfl, rfl⟩) rfl ?_
      simp only [setReader, Function.update_self]
      apply hseat
  | waitStart =>
      rw [hplace] at hstep hseat
      obtain ⟨start, -, rfl⟩ := Option.map_eq_some_iff.mp hstep
      have hplace' : ((s.setReader index
          { s.reader index with startView := place }).reader index).place = .waitStart := by
        simp only [setReader, Function.update_self, hplace]
      have hsound : (s.setReader index { s.reader index with startView := place }).Sound u := by
        refine h.moves (by simp [hplace]) hindex (moves_setReader ⟨rfl, rfl, rfl, rfl⟩) rfl ?_
        rw [hplace']
        apply hseat
      use u
      dsimp only
      split
      · apply hsound.moves (by simp [hplace']) hindex (moves_nextConsume _ index 0)
          (stream_nextConsume _ index 0)
        have hlt : index < s.checksums.length := h.checksums ▸ hindex
        apply seat_nextConsume (hsound.gathered index hindex) hlt hseat (Nat.zero_le _)
        apply (h.ring.handled_eq hindex).2.1
      · apply hsound
  | consume =>
      rw [hplace] at hstep
      obtain ⟨stream, hstream, rfl⟩ := Option.map_eq_some_iff.mp hstep
      apply h.consume hplace hindex hstream
  | consuming =>
      rw [hplace] at hstep
      obtain ⟨stream, hstream, rfl⟩ := Option.map_eq_some_iff.mp hstep
      apply h.consuming hplace hindex hstream
  | finished =>
      rw [hplace] at hstep
      cases hstep

/-! ### Every run -/

theorem sound_init (settings : Settings) :
  (init settings).Sound (Disruptor.State.init settings.geometry 0)
  := by
  constructor
  · constructor
    · apply Disruptor.State.inv_init
    · apply Disruptor.State.init_map
    · exact ⟨rfl, rfl⟩
    · intro k event hevent
      cases hevent
    · intro result hresult
      cases hresult
  · intro index hindex
    constructor
    · rfl
    · apply Table.row_replicate hindex
    · rfl
    · rfl
    · rfl
  · intro index _
    rfl
  · apply List.length_replicate
  · trivial

theorem exists_sound (hs : (disruptorLatency settings).Reachable s) :
  ∃ u, s.Sound u
  := by
  apply hs.invariant (I := fun s => ∃ u, s.Sound u)
  · exact ⟨_, sound_init settings⟩
  · intro a s s' h hstep
    obtain ⟨u, hu⟩ := h
    cases a with
    | publisher place now => apply hu.stepPublisher hstep
    | reader index place now =>
        obtain ⟨hindex, hstep⟩ := Option.ite_none_right_eq_some.mp hstep
        apply hu.stepReader hindex hstep

/-- The events written are at most those of one batch ahead of what the producer has read. -/
theorem Ring.length_le (h : s.Ring u) (hindex : index < settings.consumerCount) :
  s.stream.producer.written.length ≤ (s.stream.consumer index).handled.length + settings.batchSize
  := by
  have hlength := h.inv.producer.log.length
  have hstanding := h.standing
  obtain ⟨hhandled, -, -⟩ := h.handled_eq hindex
  have hseen : seen u index ≤ (u.released index).current :=
    (h.inv.consumers.growing index hindex).le_current (h.inv.producer.cache.views_le index hindex)
  rw [show s.stream.producer.written = u.producer.written by rw [← h.stream]; rfl]
  have hidle (hpc : u.producer.pc = .idle) : Disruptor.Producer.progress u.producer.pc = 0 := by
    rw [hpc]
    rfl
  cases hplace : s.place with
  | waitReady | starting =>
      rw [hplace] at hstanding
      obtain ⟨hpc, hpublished⟩ := hstanding
      have hprogress := hidle hpc
      omega
  | publish published =>
      rw [hplace] at hstanding
      obtain ⟨hpc, hpublished, -, hle⟩ := hstanding
      have hprogress := hidle hpc
      have hbefore := hle index hindex
      omega
  | publishing published =>
      rw [hplace] at hstanding
      obtain ⟨hpublishing, -, -, hle⟩ := hstanding
      have hahead := hpublishing.length_le h.inv.producer
      have hcount := count_le_batchSize settings published
      have hbefore := hle index hindex
      omega
  | waitReleased published index' =>
      rw [hplace] at hstanding
      obtain ⟨hpc, hpublished, -, -, -, hle⟩ := hstanding
      have hprogress := hidle hpc
      have hbefore := hle index hindex
      omega
  | joining _ | finished _ =>
      rw [hplace] at hstanding
      obtain ⟨hpc, hpublished, hle⟩ := hstanding
      have hprogress := hidle hpc
      have hbefore := hle index hindex
      omega

/-- When the producer has left its loop all events are written. -/
theorem Ring.length_eq (h : s.Ring u) {correct : Bool} (hplace : s.place = .finished correct) :
  s.stream.producer.written.length = total
  := by
  obtain ⟨hpc, hpublished, -⟩ : Standing settings u (.finished correct) := hplace ▸ h.standing
  have hlength := h.inv.producer.log.length
  simp only [hpc, hpublished, Disruptor.Producer.progress, Nat.zero_add, Nat.add_zero] at hlength
  rw [← h.stream]
  apply hlength

end Harness

/-- In every order of the steps no publication is refused. Each consumer handles the events written
in order and each one once, with the payloads expected, and is behind by one batch at most. Its row
of the samples holds its latencies after the warm-up, each one at its place. When all threads are
joined every consumer has handled all events, each row is complete, and the run is reported as
correct. -/
theorem disruptor_latency_exact {settings : Settings} {s : Harness settings}
    (hs : (disruptorLatency settings).Reachable s) :
  (∀ result ∈ s.stream.producer.returned, result = true)
    ∧ (∀ index < settings.consumerCount,
        (s.stream.consumer index).handled
            = (Disruptor.stream settings.geometry.wrapping 0 s.stream.producer.written).take
              (s.stream.consumer index).handled.length
          ∧ s.stream.producer.written.length
            ≤ (s.stream.consumer index).handled.length + settings.batchSize
          ∧ (s.reader index).ordered = true
          ∧ Recorded (Table.row sampleCount index s.samples) (s.latencies index))
    ∧ ∀ correct, s.place = .finished correct →
        correct = true ∧ s.stream.producer.written.length = total
          ∧ ∀ index < settings.consumerCount,
            (s.stream.consumer index).handled
                = Disruptor.stream settings.geometry.wrapping 0 s.stream.producer.written
              ∧ Table.row sampleCount index s.samples = (s.latencies index).drop warmupCount
  := by
  obtain ⟨u, h⟩ := Harness.exists_sound hs
  have hreturned : s.stream.producer.returned = u.producer.returned := by
    rw [← h.ring.stream]
    rfl
  rw [hreturned]
  use h.ring.returned
  constructor
  · intro index hindex
    obtain ⟨-, -, htake⟩ := h.ring.handled_eq hindex
    have hgathered := h.gathered index hindex
    exact ⟨htake, h.ring.length_le hindex, hgathered.ordered, hgathered.samples⟩
  · intro correct hplace
    obtain ⟨hfinished, hcorrect⟩ : s.Joined (.finished correct) := hplace ▸ h.joined
    have hwritten := h.ring.length_eq hplace
    use hcorrect, hwritten
    intro index hindex
    obtain ⟨-, -, htake⟩ := h.ring.handled_eq hindex
    have hhandled := h.handled_of_finished hindex (hfinished index hindex)
    constructor
    · rw [htake, hhandled, List.take_of_length_le]
      rw [Disruptor.length_stream, hwritten]
    · apply (h.gathered index hindex).samples.complete
      rw [(h.gathered index hindex).length_latencies, hhandled]

/-- Events without a payload, in batches of one, for two consumers. -/
def twoConsumers : Settings where
  payloadSize := 0
  batchSize := 1
  consumerCount := 2
  batchSize_pos := Nat.zero_lt_one
  batchSize_le := Nat.le_add_left 1 1023
  consumerCount_pos := Nat.zero_lt_two

/-- The first event is written, and only the first consumer has handled it. -/
def firstAhead : List HarnessAction :=
  [.reader 0 0 0, .reader 1 0 0, .publisher 2 fun _ => 0, .publisher 0 fun _ => 0,
    .publisher 0 fun _ => 5, .publisher 0 fun _ => 0, .publisher 0 fun _ => 0, .reader 0 1 0,
    .reader 0 0 0, .reader 0 0 0, .reader 0 1 0, .reader 0 0 7]

theorem disruptor_latency_exact_firstAhead :
  ∃ s, (disruptorLatency twoConsumers).Reachable s ∧ (s.stream.consumer 0).handled.length = 1
    ∧ (s.stream.consumer 1).handled = [] ∧ (s.reader 0).received = [7]
    ∧ s.stream.producer.written.length ≤ (s.stream.consumer 1).handled.length + 1
  := by
  obtain ⟨s, hrun, hfirst, hsecond, hreceived⟩ :
    ∃ s, (disruptorLatency twoConsumers).run firstAhead (Harness.init twoConsumers) = some s
      ∧ (s.stream.consumer 0).handled.length = 1 ∧ (s.stream.consumer 1).handled = []
      ∧ (s.reader 0).received = [7] := ⟨_, rfl, rfl, rfl, rfl⟩
  use s, ⟨_, hrun⟩, hfirst, hsecond, hreceived
  obtain ⟨-, hgathered, -⟩ := disruptor_latency_exact ⟨_, hrun⟩
  apply (hgathered 1 Nat.one_lt_two).2.1

end LatencyBenchmark
