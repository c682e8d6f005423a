import LowLatency.Disruptor.Reuse
import LowLatency.WaitStrategy.Latency

/-!
# Events in flight

The wait loop keeps one event in flight as long as every load in it reads a position the
consumer has stored. As long as nothing is released `consumer_sequence(0)` is above every
sequence, so the loop ends at once and the next event queues behind the ones before it.
-/

open Disruptor (SequenceType Geometry toWord)

namespace WaitStrategy

namespace State

variable {W : Type} {policy : WaitPolicy W} {s s' : State W}

/-- When an event is written and published, the handler has been called on the events before
it, and they are released. -/
def OneInFlight (s : State W) : Prop :=
  ∀ sequence, s.producerPlace = .publishing sequence →
    Disruptor.Producer.Admitted s.stream.producer.pc →
    (s.stream.released 0).current = BitVec.ofNat 64 sequence ∧
      (s.stream.consumer 0).handled.length = sequence

/-- A load of the wait loop does not read `2 ^ 64 - 1` from `consumer_sequence(0)`. -/
def seesRelease (s : State W) : Action → Bool
  | .producer place _ =>
      match s.producerPlace with
      | .waitReleased _ => s.stream.consumerSequence geometry 0 place ≠ BitVec.allOnes 64
      | _ => true
  | .consumer _ => true

/-! ### The invariant -/

/-- What holds of the ring on unbounded positions, by where the producer thread stands. -/
def Standing (u : Disruptor.State ℕ Event) : ProducerPlace → Prop
  | .starting => u.producer.pc = .idle ∧ u.producer.published.current = 0
  | .publish sequence =>
      sequence < total ∧ u.producer.pc = .idle ∧ u.producer.published.current = sequence ∧
        sequence ≤ (u.released 0).current
  | .publishing sequence =>
      sequence < total ∧ sequence ≤ (u.released 0).current ∧
        ∃ p : Disruptor.Producer ℕ Event, p.state.nextToPublish = sequence ∧
          p.published.current = sequence ∧
          Disruptor.Producer.Course geometry.unbounded 1 p u.producer u.producer.pc
  | .waitReleased sequence =>
      sequence < total ∧ u.producer.pc = .idle ∧ u.producer.published.current = sequence + 1
  | .joining => True

/-- The ring stands for one on unbounded positions. -/
structure Inv (s : State W) (u : Disruptor.State ℕ Event) : Prop where
  reachable : (Disruptor.machine Event geometry.unbounded geometry 0).Reachable u
  stream : u.map toWord = s.stream
  standing : Standing u s.producerPlace

variable {u u' : Disruptor.State ℕ Event}

theorem Inv.inv (h : s.Inv u) : u.Inv geometry 0 := Disruptor.State.inv_of_reachable h.reachable

theorem zero_lt_consumerCount : 0 < geometry.consumerCount := by decide

theorem total_lt : total < 2 ^ 64 := by decide

theorem standing_nextEvent {sequence : ℕ} (hidle : u.producer.pc = .idle)
    (hpublished : u.producer.published.current = sequence)
    (hreleased : sequence ≤ (u.released 0).current) :
  Standing u (nextEvent sequence)
  := by
  rw [nextEvent]
  split
  case isTrue hlt => use hlt, hidle, hpublished, hreleased
  case isFalse => trivial

/-- A step of the ring on words is the image of a step on unbounded positions. -/
theorem Inv.stream_step (h : s.Inv u) {a : Disruptor.Action Event}
    {stream : Disruptor.State SequenceType Event}
    (hstep : s.stream.step geometry.wrapping geometry a = some stream) :
  ∃ u', u.step geometry.unbounded geometry a = some u' ∧ u'.map toWord = stream ∧
    (Disruptor.machine Event geometry.unbounded geometry 0).Reachable u'
  := by
  rw [← h.stream, h.inv.map_step] at hstep
  obtain ⟨u', hu', hmap⟩ := Option.map_eq_some_iff.mp hstep
  use u', hu', hmap
  apply Disruptor.State.reachable_of_step h.reachable hu'

/-- A step of the consumer's cursor leaves where the producer stands. -/
theorem Standing.of_consumer {place : ProducerPlace} (h : Standing u place)
    (hproducer : u'.producer = u.producer)
    (hreleased : (u.released 0).current ≤ (u'.released 0).current) :
  Standing u' place
  := by
  cases place with
  | publish sequence =>
      obtain ⟨hlt, hidle, hpublished, hle⟩ := h
      rw [← hproducer] at hidle hpublished
      use hlt, hidle, hpublished, le_trans hle hreleased
  | publishing sequence =>
      obtain ⟨hlt, hle, p, hnext, hpublished, hcourse⟩ := h
      rw [← hproducer] at hcourse
      use hlt, le_trans hle hreleased, p, hnext, hpublished
  | joining => trivial
  | _ =>
      simp only [Standing, hproducer]
      apply h

/-! ### The steps of the producer thread -/

/-- After a step of `try_publish` the event is published, or to be published again, or the call
is under way. -/
theorem Inv.afterPublish {sequence : ℕ} {p : Disruptor.Producer ℕ Event} (hlt : sequence < total)
    (hnext : p.state.nextToPublish = sequence) (hpublished : p.published.current = sequence)
    (hreachable : (Disruptor.machine Event geometry.unbounded geometry 0).Reachable u)
    (hreleased : sequence ≤ (u.released 0).current)
    (hcourse : Disruptor.Producer.Course geometry.unbounded 1 p u.producer u.producer.pc) :
  (s.afterPublish policy sequence (u.map toWord)).Inv u
  := by
  cases hpc : u.producer.pc with
  | idle =>
      have hpc' : (u.map toWord).producer.pc = .idle :=
        congrArg (Disruptor.ProducerPc.map toWord) hpc
      have hreturned : (u.map toWord).producer.returned = u.producer.returned := rfl
      rw [hpc] at hcourse
      rw [State.afterPublish, hpc', hreturned]
      cases hcourse with
      | inl haccepted =>
          dsimp only
          rw [if_pos (by simp [haccepted.returned])]
          use hreachable, rfl, hlt, hpc
          rw [haccepted.published, hnext]
          rfl
      | inr hrejected =>
          dsimp only
          rw [if_neg (by simp [hrejected.returned])]
          use hreachable, rfl, hlt, hpc
          constructor
          · rw [hrejected.memory.published, hpublished]
          · apply hreleased
  | _ =>
      have hpc' := congrArg (Disruptor.ProducerPc.map toWord) hpc
      have hmap : (u.map toWord).producer.pc = u.producer.pc.map toWord := rfl
      rw [State.afterPublish, hmap, hpc']
      use hreachable, rfl, hlt, hreleased, p, hnext, hpublished

/-- A pass of the wait loop that ends has read that the event is released. -/
theorem Inv.afterLoad {sequence place : ℕ} (h : s.Inv u)
    (hplace : s.producerPlace = .waitReleased sequence)
    (hload : place ≤ (s.stream.released 0).last)
    (hsees : s.stream.consumerSequence geometry 0 place ≠ BitVec.allOnes 64) :
  (s.afterLoad policy sequence place).Inv u
  := by
  have hstanding := h.standing
  rw [hplace] at hstanding
  obtain ⟨hlt, hidle, hpublished⟩ := hstanding
  have hu := h.inv
  have hgrowing := (hu.consumers.growing 0 zero_lt_consumerCount).le_current
    (k := place) (by rw [← h.stream] at hload; apply hload)
  have hle := hu.consumers.current_le 0 zero_lt_consumerCount
  have htotal := total_lt
  have hvalue : s.stream.consumerSequence geometry 0 place =
      toWord ((u.released 0).value place) - 1 := by
    rw [← h.stream]
    rfl
  rw [State.afterLoad]
  split
  case isTrue =>
    use h.reachable, h.stream
    dsimp only
    rw [hplace]
    use hlt, hidle, hpublished
  case isFalse hge =>
    use h.reachable, h.stream
    apply standing_nextEvent hidle hpublished
    rw [hvalue] at hge hsees
    have hpos : (u.released 0).value place ≠ 0 := by
      intro hzero
      rw [hzero] at hsees
      apply hsees
      rfl
    have hsub : (toWord ((u.released 0).value place) - toWord 1).toNat =
        (u.released 0).value place - 1 :=
      Wrapping.toNat_sub_ofNat (by omega) (by omega)
    have hone : (1 : SequenceType) = toWord 1 := rfl
    rw [hone, BitVec.lt_def, hsub, BitVec.toNat_ofNat, Nat.mod_eq_of_lt (by omega)] at hge
    omega

/-- The steps of the producer thread that see a release keep the invariant. -/
theorem Inv.stepProducer {place now : ℕ} (h : s.Inv u)
    (hsees : s.seesRelease (.producer place now) = true)
    (hstep : s.stepProducer policy place now = some s') :
  ∃ u', s'.Inv u'
  := by
  have hstanding := h.standing
  rw [State.stepProducer] at hstep
  cases hplace : s.producerPlace with
  | starting =>
      rw [hplace] at hstep hstanding
      obtain rfl := Option.some.inj hstep
      use u, h.reachable, h.stream
      apply standing_nextEvent hstanding.1 hstanding.2 (Nat.zero_le _)
  | publish sequence =>
      rw [hplace] at hstep hstanding
      obtain ⟨stream, hstream, rfl⟩ := Option.map_eq_some_iff.mp hstep
      obtain ⟨hlt, hidle, hpublished, hreleased⟩ := hstanding
      obtain ⟨u', hu', rfl, hreachable⟩ := h.stream_step hstream
      use u'
      have hnext := h.inv.producer.next_eq
      simp only [hidle, Disruptor.Producer.ahead, Nat.add_zero, hpublished] at hnext
      obtain ⟨p, hp, rfl⟩ := Disruptor.State.step_producer.mp hu'
      simp only [Disruptor.Producer.step] at hp
      split at hp
      case h_1 =>
        obtain rfl := Option.some.inj hp
        apply Inv.afterPublish hlt hnext hpublished hreachable hreleased
        apply Disruptor.Producer.course_tryPublishBatch Nat.one_pos (by decide)
      case h_2 => cases hp
  | publishing sequence =>
      rw [hplace] at hstep hstanding
      obtain ⟨hlt, hreleased, p, hnext, hpublished, hcourse⟩ := hstanding
      dsimp only at hstep
      split at hstep
      case isTrue =>
        obtain ⟨stream, hstream, rfl⟩ := Option.map_eq_some_iff.mp hstep
        obtain ⟨u', hu', rfl, hreachable⟩ := h.stream_step hstream
        obtain ⟨q, hq, rfl⟩ := Disruptor.State.step_producer.mp hu'
        use { u with producer := q }
        apply Inv.afterPublish hlt hnext hpublished hreachable hreleased
        apply hcourse.resume hq
      case isFalse => cases hstep
  | waitReleased sequence =>
      rw [hplace] at hstep
      obtain ⟨v, hload, rfl⟩ := Option.map_eq_some_iff.mp hstep
      obtain ⟨-, hlast, -⟩ := Location.load_eq_some_iff.mp hload
      use u
      apply h.afterLoad hplace hlast
      simpa [seesRelease, hplace] using hsees
  | joining =>
      rw [hplace] at hstep
      cases hstep

/-! ### The steps of the consumer thread -/

/-- A step of the ring by the consumer. -/
theorem Inv.consumer_step (h : s.Inv u) {a : Disruptor.ConsumerAction}
    {stream : Disruptor.State SequenceType Event}
    (hstream : s.stream.step geometry.wrapping geometry (.consumer 0 a) = some stream) :
  ∃ u', u'.map toWord = stream ∧
    (Disruptor.machine Event geometry.unbounded geometry 0).Reachable u' ∧
    Standing u' s.producerPlace
  := by
  obtain ⟨u', hu', hmap, hreachable⟩ := h.stream_step hstream
  have hlater := Disruptor.State.later_of_step hu'
  have hgrowing := (Disruptor.State.inv_of_reachable hreachable).consumers.growing 0
    zero_lt_consumerCount
  use u', hmap, hreachable
  apply h.standing.of_consumer
  · obtain ⟨c, -, rfl⟩ := Disruptor.State.step_consumer.mp hu'
    rfl
  · apply hgrowing.current_le_of_extends (hlater.released 0)

theorem Inv.afterConsume {consumed : ℕ} {stream : Disruptor.State SequenceType Event}
    (hmap : u.map toWord = stream)
    (hreachable : (Disruptor.machine Event geometry.unbounded geometry 0).Reachable u)
    (hstanding : Standing u s.producerPlace) :
  (s.afterConsume policy consumed stream).Inv u
  := by
  rw [State.afterConsume]
  split
  · split
    · use hreachable, hmap, hstanding
    · use hreachable, hmap, hstanding
  · use hreachable, hmap, hstanding

/-- The steps of the consumer thread keep the invariant. -/
theorem Inv.stepConsumer {place : ℕ} (h : s.Inv u)
    (hstep : s.stepConsumer policy place = some s') :
  ∃ u', s'.Inv u'
  := by
  rw [State.stepConsumer] at hstep
  cases hplace : s.consumerPlace with
  | starting =>
      rw [hplace] at hstep
      obtain ⟨started, -, rfl⟩ := Option.map_eq_some_iff.mp hstep
      use u
      split
      · use h.reachable, h.stream, h.standing
      · use h.reachable, h.stream, h.standing
  | finished =>
      rw [hplace] at hstep
      cases hstep
  | _ =>
      rw [hplace] at hstep
      obtain ⟨stream, hstream, rfl⟩ := Option.map_eq_some_iff.mp hstep
      obtain ⟨u', hmap, hreachable, hstanding⟩ := h.consumer_step hstream
      use u'
      apply Inv.afterConsume hmap hreachable hstanding

/-! ### Runs -/

/-- The steps that see a release keep the invariant. -/
theorem Inv.step {a : Action} (h : s.Inv u) (hsees : s.seesRelease a = true)
    (hstep : s.step policy a = some s') :
  ∃ u', s'.Inv u'
  := by
  cases a with
  | producer place now => apply h.stepProducer hsees hstep
  | consumer place => apply h.stepConsumer hstep

/-- The threads begin at an empty ring. -/
theorem inv_init (policy : WaitPolicy W) :
  (State.init policy).Inv (Disruptor.State.init geometry 0)
  := by
  constructor
  · apply TransitionSystem.Reachable.initial
  · rfl
  · use rfl
    rfl

/-- Along steps that see a release the invariant holds. -/
theorem inv_of_reachable (hs : ((measureLatency policy).restrict seesRelease).Reachable s) :
  ∃ u, s.Inv u
  := by
  apply hs.invariant (I := fun s => ∃ u, s.Inv u)
  · use Disruptor.State.init geometry 0
    apply inv_init policy
  · rintro a s s' ⟨u, h⟩ hstep
    obtain ⟨hsees, hstep⟩ := TransitionSystem.restrict_step.mp hstep
    apply h.step hsees hstep

/-- While an event is written and published, the events before it are the published ones. -/
theorem Inv.published_eq {sequence : ℕ} (h : s.Inv u)
    (hplace : s.producerPlace = .publishing sequence)
    (hadmitted : Disruptor.Producer.Admitted u.producer.pc) :
  u.producer.published.current = sequence
  := by
  have hstanding := h.standing
  have hproducer := h.inv.producer
  rw [hplace] at hstanding
  obtain ⟨-, -, p, hnext, -, hcourse⟩ := hstanding
  have hposition := hproducer.next_eq
  cases hpc : u.producer.pc with
  | write count writer first index =>
      have hat := hproducer.atPc
      rw [hpc] at hcourse hposition hat
      obtain ⟨-, hfirst, -⟩ := hcourse
      obtain ⟨-, hstate, -⟩ := hat
      simp only [Disruptor.Producer.ahead] at hposition
      omega
  | store count =>
      rw [hpc] at hcourse hposition
      obtain ⟨rfl, hadvance, -⟩ := hcourse
      rw [Geometry.unbounded_advance] at hadvance
      simp only [Disruptor.Producer.ahead] at hposition
      omega
  | _ =>
      rw [hpc] at hadmitted
      cases hadmitted

/-- While an event is written and published, nothing is published that is not released. -/
theorem Inv.oneInFlight (h : s.Inv u) :
  s.OneInFlight
  := by
  intro sequence hplace hadmitted
  have hu := h.inv
  have hconsumer := hu.consumer 0 zero_lt_consumerCount
  rw [← h.stream, Disruptor.State.producer_map, Disruptor.Producer.pc_map,
    Disruptor.Producer.admitted_map] at hadmitted
  have hpublished := h.published_eq hplace hadmitted
  have hstanding := h.standing
  rw [hplace] at hstanding
  obtain ⟨-, hreleased, -⟩ := hstanding
  have hle := hu.consumers.current_le 0 zero_lt_consumerCount
  have hview := hu.producer.log.growing.le_current hconsumer.view_le
  have hdone := hconsumer.done_le
  obtain ⟨n, hn, hwritten, hhandled⟩ := hconsumer.handled
  simp only [Disruptor.State.released] at hle hreleased
  have hcurrent : (u.consumer 0).released.current = sequence := by omega
  have hcount : n = sequence := by omega
  rw [← h.stream]
  constructor
  · rw [Disruptor.State.released_map, Location.current_map, Disruptor.State.released, hcurrent]
  · simp only [Disruptor.State.map, Disruptor.Consumer.map, List.length_map, hhandled,
      List.length_take, Disruptor.length_stream]
    omega

/-- As long as the wait loop sees a release, one event is in flight. -/
theorem oneInFlight_of_reachable
    (hs : ((measureLatency policy).restrict seesRelease).Reachable s) :
  s.OneInFlight
  := by
  obtain ⟨u, h⟩ := inv_of_reachable hs
  apply h.oneInFlight

/-- The second event is published once the consumer has released the first. -/
theorem oneInFlight_of_reachable_second :
  ∃ s, ((measureLatency emptySpinWait).restrict seesRelease).Reachable s ∧
    s.producerPlace = .publishing 1 ∧ s.stream.producer.pc = .store 1 ∧ s.OneInFlight
  := by
  have hrun : ∃ s,
      ((measureLatency emptySpinWait).restrict seesRelease).run
        [.producer 0 0, .producer 0 7, .producer 0 0, .producer 0 0, .consumer 1, .consumer 0,
          .consumer 0, .consumer 1, .consumer 0, .consumer 0, .consumer 0, .producer 1 0,
          .producer 0 9, .producer 1 0]
        (State.init emptySpinWait) = some s ∧
      s.producerPlace = .publishing 1 ∧ s.stream.producer.pc = .store 1 := by
    refine ⟨_, rfl, rfl, rfl⟩
  obtain ⟨s, hrun, hplace, hpc⟩ := hrun
  have hs : ((measureLatency emptySpinWait).restrict seesRelease).Reachable s := ⟨_, hrun⟩
  use s, hs, hplace, hpc
  apply oneInFlight_of_reachable hs

/-- A load of the wait loop before anything is released ends the loop: the second event is
published while the first is in flight. -/
theorem not_oneInFlight :
  ¬∀ s, (measureLatency emptySpinWait).Reachable s → s.OneInFlight
  := by
  intro h
  have hrun : ∃ s,
      (measureLatency emptySpinWait).run
        [.producer 0 0, .producer 0 7, .producer 0 0, .producer 0 0, .producer 0 0, .producer 0 9,
          .producer 0 0]
        (State.init emptySpinWait) = some s ∧
      s.producerPlace = .publishing 1 ∧ s.stream.producer.pc = .store 1 ∧
      (s.stream.released 0).current = 0 := by
    refine ⟨_, rfl, rfl, rfl, rfl⟩
  obtain ⟨s, hrun, hplace, hpc, hcurrent⟩ := hrun
  obtain ⟨hreleased, -⟩ := h s ⟨_, hrun⟩ 1 hplace (by rw [hpc]; trivial)
  rw [hcurrent] at hreleased
  revert hreleased
  decide

end State

end WaitStrategy
