import LowLatency.Disruptor.Lockstep
import LowLatency.Disruptor.Reuse
import LowLatency.PairedLatency.RunLatency

/-!
# One event in flight

The wait for `consumer_position(0)` keeps one event in flight: an event is written once the
consumer has handled and released all events before it, so no latency contains the time an event
spends behind another one, and no publication is refused.
-/

open Disruptor (SequenceType Geometry toWord)

namespace PairedLatency

variable {settings : Config}

theorem Config.total_toNat (settings : Config) :
  settings.total.toNat = settings.warmupEvents.toNat + settings.events.toNat
  := by
  have hle := settings.total_le
  rw [Config.total, UInt64.toNat_add, Nat.mod_eq_of_lt (by omega)]

theorem Config.total_lt (settings : Config) : settings.total.toNat < 2 ^ 63 := by
  have hle := settings.total_le
  rw [settings.total_toNat]
  omega

theorem zero_lt_consumerCount : 0 < geometry.consumerCount := by decide

namespace State

variable {s s' : State} {u u' : Disruptor.State ℕ Event}

/-! ### The invariant -/

/-- What holds of the ring on unbounded positions, by where the producer stands. It has seen
that the events before `seen` are released. -/
def Standing (settings : Config) (u : Disruptor.State ℕ Event) (seen : ℕ) : ProducerPlace → Prop
  | .waitReady | .checkReady | .pin =>
      u.producer.pc = .idle ∧ u.producer.published.current = 0
  | .publish published =>
      u.producer.pc = .idle ∧ u.producer.published.current = published ∧
        published < settings.total.toNat ∧ published ≤ seen
  | .publishing published =>
      u.producer.Publishing 1 published ∧ published < settings.total.toNat ∧ published ≤ seen
  | .checkPublish _ => False
  | .waitReleased published | .checkReleased published =>
      u.producer.pc = .idle ∧ u.producer.published.current = published + 1 ∧
        published < settings.total.toNat ∧ published ≤ seen
  | .joining =>
      u.producer.pc = .idle ∧ u.producer.published.current = settings.total.toNat ∧
        settings.total.toNat ≤ seen
  | .catching _ | .joiningToThrow _ | .finished _ =>
      u.producer.pc = .idle ∧ u.producer.published.current ≤ settings.total.toNat ∧
        u.producer.published.current ≤ seen + 1

/-- The ring stands for one on unbounded positions, in which no publication is refused. -/
structure Ring (settings : Config) (s : State) (u : Disruptor.State ℕ Event) : Prop where
  reachable : (Disruptor.machine Event geometry.unbounded geometry 0).Reachable u
  stream : u.map toWord = s.stream
  view_le : s.releasedView ≤ (u.released 0).last
  standing : Standing settings u ((u.released 0).value s.releasedView) s.producerPlace
  returned : ∀ result ∈ u.producer.returned, result = true

theorem Ring.inv (h : s.Ring settings u) : u.Inv geometry 0 :=
  Disruptor.State.inv_of_reachable h.reachable

/-- A step of the ring on words is the image of a step on unbounded positions. -/
theorem Ring.stream_step (h : s.Ring settings u) {a : Disruptor.Action Event}
    {stream : Disruptor.State SequenceType Event}
    (hstep : s.stream.step geometry.wrapping geometry a = some stream) :
  ∃ u', u.step geometry.unbounded geometry a = some u' ∧ u'.map toWord = stream ∧
    (Disruptor.machine Event geometry.unbounded geometry 0).Reachable u'
  := by
  rw [← h.stream, h.inv.map_step] at hstep
  obtain ⟨u', hu', hmap⟩ := Option.map_eq_some_iff.mp hstep
  use u', hu', hmap
  apply Disruptor.State.reachable_of_step h.reachable hu'

/-- Where the producer stands depends on what it owns. -/
theorem Standing.congr {place : ProducerPlace} {seen : ℕ} (h : Standing settings u seen place)
    (hproducer : u'.producer = u.producer) :
  Standing settings u' seen place
  := by
  cases place with
  | checkPublish published => apply h
  | _ =>
      simp only [Standing, hproducer]
      apply h

/-- A step which leaves the ring, the cursor last read and the place of the producer. -/
theorem Ring.frame (h : s.Ring settings u) (hstream : s'.stream = s.stream)
    (hview : s'.releasedView = s.releasedView) (hplace : s'.producerPlace = s.producerPlace) :
  s'.Ring settings u
  := by
  constructor
  · apply h.reachable
  · rw [hstream, h.stream]
  · rw [hview]
    apply h.view_le
  · rw [hview, hplace]
    apply h.standing
  · apply h.returned

/-- The producer moves to another place. -/
theorem Ring.move (h : s.Ring settings u) (hstream : s'.stream = s.stream)
    (hview : s'.releasedView = s.releasedView)
    (hstanding : Standing settings u ((u.released 0).value s.releasedView) s'.producerPlace) :
  s'.Ring settings u
  := by
  constructor
  · apply h.reachable
  · rw [hstream, h.stream]
  · rw [hview]
    apply h.view_le
  · rw [hview]
    apply hstanding
  · apply h.returned

/-! ### The events published -/

theorem standing_nextEvent {published seen : ℕ} (hidle : u.producer.pc = .idle)
    (hpublished : u.producer.published.current = published)
    (hle : published ≤ settings.total.toNat) (hseen : published ≤ seen) :
  Standing settings u seen (nextEvent settings published)
  := by
  rw [nextEvent]
  split
  case isTrue hlt => use hidle, hpublished, hlt
  case isFalse hge =>
    obtain rfl : published = settings.total.toNat := by omega
    use hidle, hpublished

/-- The events published are no more than the total, and at most one of them is not seen
released. -/
theorem Standing.current_le {place : ProducerPlace} {seen : ℕ}
    (h : Standing settings u seen place) :
  u.producer.published.current ≤ settings.total.toNat
    ∧ u.producer.published.current ≤ seen + 1
  := by
  cases place with
  | waitReady | checkReady | pin =>
      obtain ⟨-, hpublished⟩ := h
      omega
  | publish published =>
      obtain ⟨-, hpublished, hlt, hle⟩ := h
      omega
  | publishing published =>
      obtain ⟨hpublishing, hlt, hle⟩ := h
      have hpublished := hpublishing.published
      omega
  | checkPublish published => cases h
  | waitReleased published | checkReleased published =>
      obtain ⟨-, hpublished, hlt, hle⟩ := h
      omega
  | joining =>
      obtain ⟨-, hpublished, hle⟩ := h
      omega
  | catching error | joiningToThrow error | finished outcome => apply h.2

/-- The events written are no more than the total, and at most one of them is not seen
released. -/
theorem Ring.length_le (h : s.Ring settings u) :
  u.producer.written.length ≤ settings.total.toNat
    ∧ u.producer.written.length ≤ (u.released 0).value s.releasedView + 1
  := by
  have hlength := h.inv.producer.log.length
  have hstanding := h.standing
  have hcurrent := hstanding.current_le
  by_cases hidle : u.producer.pc = .idle
  · rw [hidle] at hlength
    simp only [Disruptor.Producer.progress] at hlength
    omega
  · cases hplace : s.producerPlace with
    | publishing published =>
        rw [hplace] at hstanding
        obtain ⟨hpublishing, hlt, hle⟩ := hstanding
        have hwritten := hpublishing.length_le h.inv.producer
        omega
    | checkPublish published =>
        rw [hplace] at hstanding
        cases hstanding
    | _ =>
        rw [hplace] at hstanding
        cases hidle hstanding.1

/-! ### The steps of the main thread -/

/-- Every load of the cursor in a publication reads that the events before it are released. -/
theorem Ring.load_le (h : s.Ring settings u) {place v published i : ℕ}
    (hplace : s.releasedView ≤ place)
    (hpublished : published ≤ (u.released 0).value s.releasedView)
    (hi : i < geometry.consumerCount)
    (hload : (u.released i).load (u.producer.views i) place = some v) :
  published ≤ v
  := by
  obtain rfl : i = 0 := by
    have hcount : geometry.consumerCount = 1 := rfl
    omega
  obtain ⟨-, hlast, rfl⟩ := Location.load_eq_some_iff.mp hload
  have hgrowing := h.inv.consumers.growing 0 hi hplace hlast
  omega

/-- After a step of `try_publish_batch` the call is under way, or the event is published. -/
theorem Ring.afterPublish (h : s.Ring settings u) {published : ℕ}
    (hreachable : (Disruptor.machine Event geometry.unbounded geometry 0).Reachable u')
    (hconsumer : u'.consumer = u.consumer) (hlt : published < settings.total.toNat)
    (hle : published ≤ (u.released 0).value s.releasedView)
    (hpublish : (u'.producer.Publishing 1 published ∧ u'.producer.returned = u.producer.returned)
      ∨ u'.producer.pc = .idle ∧ u'.producer.published.current = published + 1
        ∧ u'.producer.returned = u.producer.returned ++ [true]) :
  (s.afterPublish published (u'.map toWord)).Ring settings u'
  := by
  have hreleased : u'.released = u.released := by
    funext i
    simp only [Disruptor.State.released, hconsumer]
  rcases hpublish with ⟨hpublishing, hreturned⟩ | ⟨hidle, hcurrent, hreturned⟩
  · have hpc : (u'.map toWord).producer.pc ≠ .idle := by
      intro hidle
      apply hpublishing.pc_ne
      apply Disruptor.Producer.pc_eq_idle hidle
    have hafter : s.afterPublish published (u'.map toWord)
        = { s with stream := u'.map toWord, producerPlace := .publishing published } := by
      rw [State.afterPublish]
      split
      case h_1 hidle => cases hpc hidle
      case h_2 => rfl
    rw [hafter]
    constructor
    · apply hreachable
    · rfl
    · rw [hreleased]
      apply h.view_le
    · rw [hreleased]
      use hpublishing, hlt
    · rw [hreturned]
      apply h.returned
  · have hpc : (u'.map toWord).producer.pc = .idle :=
      congrArg (Disruptor.ProducerPc.map toWord) hidle
    have hlast : (u'.map toWord).producer.returned.getLastD false = true := by
      have hmap : (u'.map toWord).producer.returned = u'.producer.returned := rfl
      rw [hmap, hreturned]
      simp
    rw [State.afterPublish, hpc]
    dsimp only
    rw [if_pos hlast]
    constructor
    · apply hreachable
    · rfl
    · rw [hreleased]
      apply h.view_le
    · rw [hreleased]
      use hidle, hcurrent, hlt
    · rw [hreturned]
      intro result hresult
      rcases List.mem_append.mp hresult with hold | hnew
      · apply h.returned result hold
      · apply List.mem_singleton.mp hnew

/-- A load of the cursor which ends the wait has read that the event is released. -/
theorem Ring.afterPosition (h : s.Ring settings u) {published place : ℕ}
    (hplace : s.producerPlace = .waitReleased published) (hview : s.releasedView ≤ place)
    (hlast : place ≤ (u.released 0).last) :
  (s.afterPosition settings published place).Ring settings u
  := by
  have hstanding := h.standing
  rw [hplace] at hstanding
  obtain ⟨hidle, hpublished, hlt, hle⟩ := hstanding
  have hgrowing := h.inv.consumers.growing 0 zero_lt_consumerCount
  have hgrows := hgrowing hview hlast
  have hcurrent := hgrowing.le_current hlast
  have hreleased := h.inv.consumers.current_le 0 zero_lt_consumerCount
  have htotal := settings.total_lt
  have hvalue : s.stream.consumerPosition geometry 0 place
      = toWord ((u.released 0).value place) := by
    rw [← h.stream]
    rfl
  rw [State.afterPosition, hvalue]
  split
  case isTrue =>
    constructor
    · apply h.reachable
    · apply h.stream
    · apply hlast
    · use hidle, hpublished, hlt
      dsimp only
      omega
    · apply h.returned
  case isFalse hge =>
    rw [BitVec.lt_def, BitVec.toNat_ofNat, BitVec.toNat_ofNat, Nat.mod_eq_of_lt (by omega),
      Nat.mod_eq_of_lt (by omega)] at hge
    constructor
    · apply h.reachable
    · apply h.stream
    · apply hlast
    · have hseen : published + 1 ≤ (u.released 0).value place := by omega
      apply standing_nextEvent hidle hpublished hlt hseen
    · apply h.returned

/-- The producer gives up. -/
theorem Standing.giveUp {place place' : ProducerPlace} {seen : ℕ}
    (h : Standing settings u seen place) (hidle : u.producer.pc = .idle)
    (hplace' : (∃ error, place' = .catching error ∨ place' = .joiningToThrow error)
      ∨ ∃ outcome, place' = .finished outcome) :
  Standing settings u seen place'
  := by
  have hcurrent := h.current_le
  rcases hplace' with ⟨error, rfl | rfl⟩ | ⟨outcome, rfl⟩
  all_goals use hidle

/-- After a load of `failed` the producer goes on or gives up. -/
theorem Ring.afterFailed (h : s.Ring settings u) {place : ℕ} {next : ProducerPlace}
    {failed : Bool} (hidle : u.producer.pc = .idle)
    (hnext : Standing settings u ((u.released 0).value s.releasedView) next) :
  (s.afterFailed place next failed).Ring settings u
  := by
  rw [State.afterFailed]
  split
  · apply h.move
    · rfl
    · rfl
    · apply h.standing.giveUp hidle
      left
      use s.consumerError
      left
      rfl
  · apply h.move
    · rfl
    · rfl
    · apply hnext

/-- The steps of the main thread keep the invariant of the ring. -/
theorem Ring.stepProducer (h : s.Ring settings u) {place : ℕ} {now : Int64}
    (hstep : s.stepProducer settings place now = some s') :
  ∃ u', s'.Ring settings u'
  := by
  have hstanding := h.standing
  rw [State.stepProducer] at hstep
  cases hplace : s.producerPlace with
  | waitReady =>
      rw [hplace] at hstep hstanding
      obtain ⟨ready, -, rfl⟩ := Option.map_eq_some_iff.mp hstep
      use u
      refine h.move rfl rfl ?_
      split
      · apply hstanding
      · apply hstanding
  | checkReady =>
      rw [hplace] at hstep hstanding
      obtain ⟨failed, -, rfl⟩ := Option.map_eq_some_iff.mp hstep
      use u
      exact h.afterFailed hstanding.1 hstanding
  | pin =>
      rw [hplace] at hstep hstanding
      obtain rfl := Option.some.inj hstep
      use u
      refine h.move rfl rfl ?_
      apply standing_nextEvent hstanding.1 hstanding.2 (Nat.zero_le _) (Nat.zero_le _)
  | publish published =>
      rw [hplace] at hstep hstanding
      obtain ⟨stream, hstream, rfl⟩ := Option.map_eq_some_iff.mp hstep
      obtain ⟨hidle, hpublished, hlt, hle⟩ := hstanding
      obtain ⟨u', hu', rfl, hreachable⟩ := h.stream_step hstream
      use u'
      have hs' := Disruptor.State.step_publish (Or.inr rfl) hu'
      subst hs'
      apply h.afterPublish hreachable rfl hlt hle
      left
      have hcapacity : 1 ≤ geometry.capacity := by decide
      constructor
      · exact Disruptor.Producer.publishing_begin Nat.one_pos hcapacity hpublished
      · apply Disruptor.Producer.returned_tryPublishBatch Nat.one_pos hcapacity
  | publishing published =>
      rw [hplace] at hstep hstanding
      obtain ⟨hpublishing, hlt, hle⟩ := hstanding
      dsimp only at hstep
      split at hstep
      case isTrue hview =>
        obtain ⟨stream, hstream, rfl⟩ := Option.map_eq_some_iff.mp hstep
        obtain ⟨u', hu', rfl, hreachable⟩ := h.stream_step hstream
        obtain ⟨q, hq, rfl⟩ := Disruptor.State.step_producer.mp hu'
        use { u with producer := q }
        apply h.afterPublish hreachable rfl hlt hle
        apply hpublishing.resume h.inv.producer (by decide) _ hq
        intro i hi v hload
        apply h.load_le hview hle hi hload
      case isFalse => cases hstep
  | checkPublish published =>
      rw [hplace] at hstanding
      cases hstanding
  | waitReleased published =>
      rw [hplace] at hstep
      obtain ⟨v, hload, rfl⟩ := Option.map_eq_some_iff.mp hstep
      obtain ⟨hview, hlast, -⟩ := Location.load_eq_some_iff.mp hload
      rw [← h.stream] at hlast
      use u
      apply h.afterPosition hplace (le_trans (Nat.le_max_left _ _) hview) hlast
  | checkReleased published =>
      rw [hplace] at hstep hstanding
      obtain ⟨failed, -, rfl⟩ := Option.map_eq_some_iff.mp hstep
      use u
      exact h.afterFailed hstanding.1 hstanding
  | catching error =>
      rw [hplace] at hstep hstanding
      obtain rfl := Option.some.inj hstep
      use u
      exact h.move rfl rfl hstanding
  | joiningToThrow error =>
      rw [hplace] at hstep hstanding
      dsimp only at hstep
      split at hstep
      case h_1 =>
        obtain rfl := Option.some.inj hstep
        use u
        exact h.move rfl rfl hstanding
      case h_2 => cases hstep
  | joining =>
      rw [hplace] at hstep hstanding
      dsimp only at hstep
      split at hstep
      case h_1 =>
        obtain rfl := Option.some.inj hstep
        use u
        refine h.move rfl rfl ?_
        apply hstanding.giveUp hstanding.1
        right
        use s.conclude settings
      case h_2 => cases hstep
  | finished outcome =>
      rw [hplace] at hstep
      cases hstep

/-! ### The steps of the consumer thread -/

/-- A step of the ring by the consumer. -/
theorem Ring.consumer_step (h : s.Ring settings u) {a : Disruptor.ConsumerAction}
    {stream : Disruptor.State SequenceType Event}
    (hstream : s.stream.step geometry.wrapping geometry (.consumer 0 a) = some stream)
    (hs' : s'.stream = stream) (hview : s'.releasedView = s.releasedView)
    (hplace : s'.producerPlace = s.producerPlace) :
  ∃ u', u.step geometry.unbounded geometry (.consumer 0 a) = some u' ∧ s'.Ring settings u'
  := by
  obtain ⟨u', hu', hmap, hreachable⟩ := h.stream_step hstream
  have hlater := (Disruptor.State.later_of_step hu').released 0
  have hproducer : u'.producer = u.producer := by
    obtain ⟨c, -, rfl⟩ := Disruptor.State.step_consumer.mp hu'
    rfl
  have hvalue := hlater.value_eq h.view_le
  use u', hu'
  constructor
  · apply hreachable
  · rw [hs', hmap]
  · rw [hview]
    apply le_trans h.view_le hlater.last_le
  · rw [hview, hplace, hvalue]
    apply h.standing.congr hproducer
  · rw [hproducer]
    apply h.returned

theorem afterConsume_stream (settings : Config) (s : State)
    (stream : Disruptor.State SequenceType Event) :
  (s.afterConsume settings stream).stream = stream
    ∧ (s.afterConsume settings stream).releasedView = s.releasedView
    ∧ (s.afterConsume settings stream).producerPlace = s.producerPlace
  := by
  rw [State.afterConsume]
  split
  · split
    · exact ⟨rfl, rfl, rfl⟩
    · exact ⟨rfl, rfl, rfl⟩
  · exact ⟨rfl, rfl, rfl⟩

theorem handled_stream (now : Int64) (stream : Disruptor.State SequenceType Event) :
  (s.handled now stream).releasedView = s.releasedView
    ∧ (s.handled now stream).producerPlace = s.producerPlace
  := by
  rw [State.handled]
  split
  · exact ⟨rfl, rfl⟩
  · exact ⟨rfl, rfl⟩

/-- The steps of the consumer thread keep the invariant of the ring. -/
theorem Ring.stepConsumer (h : s.Ring settings u) {place : ℕ} {now : Int64}
    (hstep : s.stepConsumer settings place now = some s') :
  ∃ u', s'.Ring settings u'
  := by
  rw [State.stepConsumer] at hstep
  cases hplace : s.consumerPlace with
  | makeConsumer =>
      rw [hplace] at hstep
      obtain ⟨stream, hstream, rfl⟩ := Option.map_eq_some_iff.mp hstep
      have h' : ∃ u', _ ∧ State.Ring settings
          { s with stream := stream, consumerPlace := .pin } u' :=
        h.consumer_step hstream rfl rfl rfl
      obtain ⟨u', -, h'⟩ := h'
      use u'
  | consume =>
      rw [hplace] at hstep
      obtain ⟨stream, hstream, rfl⟩ := Option.map_eq_some_iff.mp hstep
      obtain ⟨hs', hview, hplace'⟩ := afterConsume_stream settings s stream
      obtain ⟨u', -, h'⟩ := h.consumer_step hstream hs' hview hplace'
      use u'
  | consuming =>
      rw [hplace] at hstep
      obtain ⟨stream, hstream, rfl⟩ := Option.map_eq_some_iff.mp hstep
      obtain ⟨hs', hview, hplace'⟩ := afterConsume_stream settings
        (s.handled now stream) stream
      obtain ⟨hview', hplace''⟩ := handled_stream (s := s) now stream
      obtain ⟨u', -, h'⟩ := h.consumer_step hstream hs' (hview.trans hview')
        (hplace'.trans hplace'')
      use u'
  | checkFailed =>
      rw [hplace] at hstep
      obtain ⟨failed, -, rfl⟩ := Option.map_eq_some_iff.mp hstep
      exact ⟨u, h.frame rfl rfl rfl⟩
  | finished =>
      rw [hplace] at hstep
      cases hstep
  | _ =>
      rw [hplace] at hstep
      obtain rfl := Option.some.inj hstep
      exact ⟨u, h.frame rfl rfl rfl⟩

/-! ### Runs -/

/-- A step of a thread keeps the invariant of the ring. -/
theorem Ring.step (h : s.Ring settings u) {a : Action} (hstep : s.step settings a = some s') :
  ∃ u', s'.Ring settings u'
  := by
  cases a with
  | producer place now => apply h.stepProducer hstep
  | producerFails failure =>
      simp only [State.step, failProducer] at hstep
      split at hstep
      case h_1 hplace =>
        obtain rfl := Option.some.inj hstep
        have hstanding := h.standing
        rw [hplace] at hstanding
        use u
        refine h.move rfl rfl ?_
        apply hstanding.giveUp hstanding.1
        left
        use some (.pin failure)
        left
        rfl
      case h_2 => cases hstep
  | consumer place now => apply h.stepConsumer hstep
  | consumerFails failure =>
      simp only [State.step, failConsumer] at hstep
      split at hstep
      case h_1 =>
        obtain rfl := Option.some.inj hstep
        exact ⟨u, h.frame rfl rfl rfl⟩
      case h_2 => cases hstep

/-- The threads begin at an empty ring, which has a producer handle. -/
theorem exists_ring_init (settings : Config) :
  ∃ u, (State.init settings).Ring settings u
  := by
  refine ⟨_, ⟨[.producer .makeProducer], rfl⟩, rfl, Nat.le_refl _, ⟨rfl, rfl⟩, ?_⟩
  intro result hresult
  cases hresult

theorem exists_ring (hs : (runLatency settings).Reachable s) :
  ∃ u, s.Ring settings u
  := by
  apply hs.invariant (exists_ring_init settings)
  rintro a s s' ⟨u, h⟩ hstep
  apply h.step hstep

/-- What is handled is the beginning of what is written, and is beyond what is released by the
batch the consumer stands in. -/
theorem Ring.handled_eq (h : s.Ring settings u) :
  (s.stream.consumer 0).handled.length
      = (u.released 0).current + Disruptor.Consumer.done (u.consumer 0).pc
    ∧ (s.stream.consumer 0).handled.length ≤ u.producer.published.current
    ∧ (s.stream.consumer 0).handled
        = (Disruptor.stream geometry.wrapping 0 s.stream.producer.written).take
          (s.stream.consumer 0).handled.length
  := by
  rw [← h.stream]
  apply h.inv.handled_eq zero_lt_consumerCount

end State

/-- One event in flight. While the producer publishes an event, from before its claim of the
slot on, the consumer has handled and released every event before it. At every moment at most
one event is written and not released, and no publication is refused. -/
theorem one_in_flight {s : State} (hs : (runLatency settings).Reachable s) :
  (∀ published, s.producerPlace = .publishing published →
      published < settings.total.toNat
        ∧ (s.stream.released 0).current = BitVec.ofNat 64 published
        ∧ (s.stream.consumer 0).handled.length = published)
    ∧ s.stream.producer.written.length ≤ settings.total.toNat
    ∧ s.stream.producer.written.length ≤ (s.stream.consumer 0).handled.length + 1
    ∧ ∀ result ∈ s.stream.producer.returned, result = true
  := by
  obtain ⟨u, h⟩ := State.exists_ring hs
  have hu := h.inv
  have hgrowing := hu.consumers.growing 0 zero_lt_consumerCount
  have hseen := hgrowing.le_current h.view_le
  have hreleased := hu.consumers.current_le 0 zero_lt_consumerCount
  obtain ⟨hlength, hle, -⟩ := h.handled_eq
  obtain ⟨htotal, hflight⟩ := h.length_le
  have hwords : s.stream.producer.written = u.producer.written := by
    rw [← h.stream]
    rfl
  rw [hwords]
  constructor
  · intro published hplace
    have hstanding := h.standing
    rw [hplace] at hstanding
    obtain ⟨hpublishing, hlt, hview⟩ := hstanding
    have hpublished := hpublishing.published
    use hlt
    constructor
    · rw [← h.stream, Disruptor.State.current_released_map]
      congr 1
      omega
    · omega
  · use htotal
    constructor
    · omega
    · rw [← h.stream]
      apply h.returned

/-- One event to warm up, and a measured one. -/
def Config.twoEvents : Config where
  events := 1
  warmupEvents := 1
  producerCpu := 0
  consumerCpu := 1
  events_pos := by decide
  total_le := by decide

/-- The second event is being published. -/
def secondEvent : List Action :=
  [.consumer 0 0, .consumer 0 0, .consumer 0 0, .producer 1 0, .producer 0 0, .producer 0 7,
    .producer 0 0, .producer 0 0, .consumer 0 0, .consumer 1 0, .consumer 0 9, .consumer 0 0,
    .consumer 0 0, .producer 1 0, .producer 0 20]

theorem one_in_flight_secondEvent :
  ∃ s, (runLatency Config.twoEvents).Reachable s ∧ s.producerPlace = .publishing 1
    ∧ (s.stream.consumer 0).handled.length = 1
  := by
  obtain ⟨s, hrun, hplace⟩ : ∃ s, (runLatency Config.twoEvents).run secondEvent
      (State.init Config.twoEvents) = some s ∧ s.producerPlace = .publishing 1 := ⟨_, rfl, rfl⟩
  use s, ⟨_, hrun⟩, hplace
  apply ((one_in_flight ⟨_, hrun⟩).1 1 hplace).2.2

end PairedLatency
