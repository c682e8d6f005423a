import LowLatency.PairedLatency.Samples

/-!
# The flags of the paired latency benchmark

The flags `ready` and `failed` tell each thread what has become of the other one. A consumer that
is seen ready throws nothing any more, so what the main thread rethrows is there, and nothing is
published by then.
-/

open Disruptor (SequenceType Geometry toWord)

namespace PairedLatency

variable {settings : Config}

/-! ### What the flags tell -/

/-- The main thread has seen that the consumer is ready, and has not given up. -/
def ProducerPlace.sawReady : ProducerPlace → Bool
  | .pin | .publish _ | .publishing _ | .checkPublish _ | .waitReleased _ | .checkReleased _
  | .joining => true
  | _ => false

/-- The main thread may have stored `failed`. -/
def ProducerPlace.gaveUp : ProducerPlace → Bool
  | .joiningToThrow _ | .finished _ => true
  | _ => false

/-- The consumer thread may have stored `ready`. -/
def ConsumerPlace.isReady : ConsumerPlace → Bool
  | .consume | .consuming | .checkFailed | .finished => true
  | _ => false

namespace State

variable {s s' : State} {u : Disruptor.State ℕ Event}

/-- Some value that `ready` or `failed` has held is true. -/
def Raised (flag : Location Bool) : Prop :=
  ∃ place ≤ flag.last, flag.value place = true

theorem raised_of_load {flag : Location Bool} {view place : ℕ}
    (h : flag.load view place = some true) :
  Raised flag
  := by
  obtain ⟨-, hlast, hvalue⟩ := Location.load_eq_some_iff.mp h
  use place, hlast, hvalue

/-- What the flags tell, by where the threads stand. -/
structure Control (settings : Config) (s : State) : Prop where
  error : ∀ failure, s.consumerError = some failure → ∃ pinFailure, failure = .pin pinFailure
  thrown : s.consumerError.isSome = true →
    s.consumerPlace = .catching ∨ s.consumerPlace = .finished
  catching : s.consumerPlace = .catching → s.consumerError.isSome = true
  ready : Raised s.ready → s.consumerError = none ∧ s.consumerPlace.isReady = true
  sawReady : s.producerPlace.sawReady = true →
    s.consumerError = none ∧ s.consumerPlace.isReady = true
  failed : Raised s.failed → s.consumerError.isSome = true ∨ s.producerPlace.gaveUp = true
  consumed : s.consumerPlace = .finished → s.consumerError.isSome = true
    ∨ (s.stream.consumer 0).handled.length = settings.total.toNat
    ∨ s.producerPlace.gaveUp = true
  caught : ∀ error, s.producerPlace = .catching error ∨ s.producerPlace = .joiningToThrow error →
    (∃ pinFailure, error = some (.pin pinFailure)) ∧ s.stream.producer.written = []
  outcome : ∀ outcome, s.producerPlace = .finished outcome → s.consumerPlace = .finished
    ∧ ((∃ pinFailure, outcome = some (.error (.pin pinFailure)))
        ∧ s.stream.producer.written = []
      ∨ (s.stream.consumer 0).handled.length = settings.total.toNat
        ∧ outcome = s.validate settings)

/-! ### The steps of the main thread -/

/-- Nothing is written before the consumer is seen ready. -/
theorem Ring.written_eq_nil (h : s.Ring settings u)
    (hplace : s.producerPlace = .checkReady ∨ s.producerPlace = .pin) :
  s.stream.producer.written = []
  := by
  have hstanding := h.standing
  have hlength := h.inv.producer.log.length
  have hpublished : u.producer.pc = .idle ∧ u.producer.published.current = 0 := by
    rcases hplace with hplace | hplace
    · rw [hplace] at hstanding
      apply hstanding
    · rw [hplace] at hstanding
      apply hstanding
  rw [hpublished.1, hpublished.2] at hlength
  simp only [Disruptor.Producer.progress] at hlength
  rw [← h.stream]
  apply List.length_eq_zero_iff.mp
  simp only [Disruptor.State.map, Disruptor.Producer.map]
  omega

/-- The main thread moves to a place where it has not given up, and not finished. -/
theorem Control.move (h : s.Control settings) {stream : Disruptor.State SequenceType Event}
    {result : Measurement} {place : ProducerPlace} {readyView failedView releasedView : ℕ}
    (hhandled : (stream.consumer 0).handled = (s.stream.consumer 0).handled)
    (hgaveUp : s.producerPlace.gaveUp = false)
    (hcaught : ∀ error, place = .catching error ∨ place = .joiningToThrow error →
      (∃ pinFailure, error = some (.pin pinFailure)) ∧ stream.producer.written = [])
    (hfinished : ∀ outcome, place ≠ .finished outcome)
    (hready : place.sawReady = true → s.consumerError = none ∧ s.consumerPlace.isReady = true) :
  Control settings
    { s with
      stream := stream
      result := result
      producerPlace := place
      readyView := readyView
      failedView := failedView
      releasedView := releasedView }
  := by
  constructor
  · apply h.error
  · apply h.thrown
  · apply h.catching
  · apply h.ready
  · apply hready
  · intro hraised
    left
    rcases h.failed hraised with hsome | hgave
    · apply hsome
    · rw [hgaveUp] at hgave
      cases hgave
  · intro hplace
    rcases h.consumed hplace with hsome | htotal | hgave
    · left
      apply hsome
    · right
      left
      rw [hhandled, htotal]
    · rw [hgaveUp] at hgave
      cases hgave
  · apply hcaught
  · intro outcome houtcome
    cases hfinished outcome houtcome

/-- What the main thread rethrows. -/
theorem Control.rethrown (h : s.Control settings) (hgaveUp : s.producerPlace.gaveUp = false)
    (hraised : Raised s.failed) :
  ∃ pinFailure, s.consumerError = some (.pin pinFailure)
  := by
  rcases h.failed hraised with hsome | hgave
  · obtain ⟨failure, hfailure⟩ := Option.isSome_iff_exists.mp hsome
    obtain ⟨pinFailure, rfl⟩ := h.error failure hfailure
    use pinFailure
  · rw [hgaveUp] at hgave
    cases hgave

/-- After a load of `failed` the main thread goes on, or rethrows what the consumer threw. -/
theorem Control.afterFailed (h : s.Control settings) {place : ℕ} {next : ProducerPlace}
    {failed : Bool} (hload : s.failed.load s.failedView place = some failed)
    (hgaveUp : s.producerPlace.gaveUp = false)
    (hwritten : s.producerPlace.sawReady = false → s.stream.producer.written = [])
    (hcaught : ∀ error, next ≠ .catching error ∧ next ≠ .joiningToThrow error)
    (hfinished : ∀ outcome, next ≠ .finished outcome)
    (hready : next.sawReady = true → s.producerPlace.sawReady = true) :
  (s.afterFailed place next failed).Control settings
  := by
  rw [State.afterFailed]
  split
  case isTrue htrue =>
    subst htrue
    obtain ⟨pinFailure, herror⟩ := h.rethrown hgaveUp (raised_of_load hload)
    apply h.move rfl hgaveUp
    · rintro error (hplace | hplace)
      · obtain rfl := ProducerPlace.catching.inj hplace
        use ⟨pinFailure, herror⟩
        apply hwritten
        by_contra hsaw
        rw [(h.sawReady (Bool.eq_true_of_not_eq_false hsaw)).1] at herror
        cases herror
      · cases hplace
    · intro outcome hplace
      cases hplace
    · intro hsaw
      cases hsaw
  case isFalse =>
    apply h.move rfl hgaveUp
    · rintro error (hplace | hplace)
      · cases (hcaught error).1 hplace
      · cases (hcaught error).2 hplace
    · apply hfinished
    · intro hsaw
      apply h.sawReady (hready hsaw)

/-- The place where the loop over the events goes on. -/
theorem nextEvent_cases (settings : Config) (published : ℕ) :
  nextEvent settings published = .publish published ∨ nextEvent settings published = .joining
  := by
  rw [nextEvent]
  split
  · left
    rfl
  · right
    rfl

/-- The main thread goes on with the events. -/
theorem Control.goOn (h : s.Control settings) {stream : Disruptor.State SequenceType Event}
    {result : Measurement} {place : ProducerPlace} {readyView failedView releasedView : ℕ}
    (hhandled : (stream.consumer 0).handled = (s.stream.consumer 0).handled)
    (hsaw : s.producerPlace.sawReady = true) (hplace : place.sawReady = true) :
  Control settings
    { s with
      stream := stream
      result := result
      producerPlace := place
      readyView := readyView
      failedView := failedView
      releasedView := releasedView }
  := by
  apply h.move hhandled
  · cases hp : s.producerPlace with
    | joiningToThrow error =>
        rw [hp] at hsaw
        cases hsaw
    | finished outcome =>
        rw [hp] at hsaw
        cases hsaw
    | _ => rfl
  · rintro error (hcatching | hjoining)
    · rw [hcatching] at hplace
      cases hplace
    · rw [hjoining] at hplace
      cases hplace
  · intro outcome houtcome
    rw [houtcome] at hplace
    cases hplace
  · intro _
    apply h.sawReady hsaw

theorem Control.afterPublish (h : s.Control settings) {published : ℕ}
    {stream : Disruptor.State SequenceType Event}
    (hhandled : (stream.consumer 0).handled = (s.stream.consumer 0).handled)
    (hsaw : s.producerPlace.sawReady = true) :
  (s.afterPublish published stream).Control settings
  := by
  rw [State.afterPublish]
  split
  · split
    · exact h.goOn hhandled hsaw rfl
    · exact h.goOn hhandled hsaw rfl
  · exact h.goOn hhandled hsaw rfl

theorem sawReady_nextEvent (published : ℕ) :
  (nextEvent settings published).sawReady = true
  := by
  rcases nextEvent_cases settings published with hplace | hplace
  · rw [hplace]
    rfl
  · rw [hplace]
    rfl

/-- The main thread stores `failed`. -/
theorem Control.storeFailed (h : s.Control settings) {error : Option Failure}
    (hplace : s.producerPlace = .catching error) :
  Control settings
    { s with failed := s.failed.store true, producerPlace := .joiningToThrow error }
  := by
  constructor
  · apply h.error
  · apply h.thrown
  · apply h.catching
  · apply h.ready
  · intro hsaw
    cases hsaw
  · intro _
    right
    rfl
  · intro _
    right
    right
    rfl
  · rintro error' (hcatching | hjoining)
    · cases hcatching
    · obtain rfl := ProducerPlace.joiningToThrow.inj hjoining
      apply h.caught error (Or.inl hplace)
  · intro outcome houtcome
    cases houtcome

/-- The main thread finishes once the consumer is joined. -/
theorem Control.finish (h : s.Control settings)
    {outcome : Option (Except Failure Measurement)} (hconsumer : s.consumerPlace = .finished)
    (houtcome : (∃ pinFailure, outcome = some (.error (.pin pinFailure)))
        ∧ s.stream.producer.written = []
      ∨ (s.stream.consumer 0).handled.length = settings.total.toNat
        ∧ outcome = s.validate settings) :
  Control settings { s with producerPlace := .finished outcome }
  := by
  constructor
  · apply h.error
  · apply h.thrown
  · apply h.catching
  · apply h.ready
  · intro hsaw
    cases hsaw
  · intro _
    right
    rfl
  · intro _
    right
    right
    rfl
  · rintro error (hcatching | hjoining)
    · cases hcatching
    · cases hjoining
  · intro outcome' houtcome'
    obtain rfl := ProducerPlace.finished.inj houtcome'
    use hconsumer, houtcome

/-- A run whose consumer is joined without an exception has consumed all events. -/
theorem Control.joined (h : s.Control settings) (hplace : s.producerPlace = .joining)
    (hconsumer : s.consumerPlace = .finished) :
  s.consumerError = none ∧ (s.stream.consumer 0).handled.length = settings.total.toNat
  := by
  obtain ⟨herror, -⟩ := h.sawReady (by rw [hplace]; rfl)
  use herror
  rcases h.consumed hconsumer with hsome | htotal | hgave
  · rw [herror] at hsome
    cases hsome
  · apply htotal
  · rw [hplace] at hgave
    cases hgave

/-- The steps of the main thread keep what the flags tell. -/
theorem Control.stepProducer (h : s.Control settings) (hring : s.Ring settings u) {place : ℕ}
    {now : Int64} (hstep : s.stepProducer settings place now = some s') :
  s'.Control settings
  := by
  rw [State.stepProducer] at hstep
  cases hplace : s.producerPlace with
  | waitReady =>
      rw [hplace] at hstep
      obtain ⟨ready, hload, rfl⟩ := Option.map_eq_some_iff.mp hstep
      apply h.move rfl (by rw [hplace]; rfl)
      · rintro error (hcatching | hjoining)
        · split at hcatching
          all_goals cases hcatching
        · split at hjoining
          all_goals cases hjoining
      · intro outcome houtcome
        split at houtcome
        all_goals cases houtcome
      · intro hsaw
        split at hsaw
        case isTrue htrue =>
          subst htrue
          apply h.ready (raised_of_load hload)
        case isFalse => cases hsaw
  | checkReady =>
      rw [hplace] at hstep
      obtain ⟨failed, hload, rfl⟩ := Option.map_eq_some_iff.mp hstep
      apply h.afterFailed hload (by rw [hplace]; rfl)
      · intro _
        apply hring.written_eq_nil (Or.inl hplace)
      · intro error
        simp
      · simp
      · intro hsaw
        cases hsaw
  | pin =>
      rw [hplace] at hstep
      obtain rfl := Option.some.inj hstep
      exact h.goOn rfl (by rw [hplace]; rfl) (sawReady_nextEvent 0)
  | publish published =>
      rw [hplace] at hstep
      obtain ⟨stream, hstream, rfl⟩ := Option.map_eq_some_iff.mp hstep
      apply h.afterPublish (handled_of_producer hstream) (by rw [hplace]; rfl)
  | publishing published =>
      rw [hplace] at hstep
      dsimp only at hstep
      split at hstep
      case isTrue =>
        obtain ⟨stream, hstream, rfl⟩ := Option.map_eq_some_iff.mp hstep
        apply h.afterPublish (handled_of_producer hstream) (by rw [hplace]; rfl)
      case isFalse => cases hstep
  | checkPublish published =>
      rw [hplace] at hstep
      obtain ⟨failed, hload, rfl⟩ := Option.map_eq_some_iff.mp hstep
      apply h.afterFailed hload (by rw [hplace]; rfl)
      · intro hsaw
        rw [hplace] at hsaw
        cases hsaw
      · intro error
        simp
      · simp
      · intro _
        rw [hplace]
        rfl
  | waitReleased published =>
      rw [hplace] at hstep
      obtain ⟨v, -, rfl⟩ := Option.map_eq_some_iff.mp hstep
      rw [State.afterPosition]
      split
      · exact h.goOn rfl (by rw [hplace]; rfl) rfl
      · exact h.goOn rfl (by rw [hplace]; rfl) (sawReady_nextEvent (published + 1))
  | checkReleased published =>
      rw [hplace] at hstep
      obtain ⟨failed, hload, rfl⟩ := Option.map_eq_some_iff.mp hstep
      apply h.afterFailed hload (by rw [hplace]; rfl)
      · intro hsaw
        rw [hplace] at hsaw
        cases hsaw
      · intro error
        simp
      · simp
      · intro _
        rw [hplace]
        rfl
  | catching error =>
      rw [hplace] at hstep
      obtain rfl := Option.some.inj hstep
      apply h.storeFailed hplace
  | joiningToThrow error =>
      rw [hplace] at hstep
      dsimp only at hstep
      split at hstep
      case h_1 hconsumer =>
        obtain rfl := Option.some.inj hstep
        obtain ⟨⟨pinFailure, rfl⟩, hwritten⟩ := h.caught error (Or.inr hplace)
        apply h.finish hconsumer
        left
        use ⟨pinFailure, rfl⟩
      case h_2 => cases hstep
  | joining =>
      rw [hplace] at hstep
      dsimp only at hstep
      split at hstep
      case h_1 hconsumer =>
        obtain rfl := Option.some.inj hstep
        obtain ⟨herror, htotal⟩ := h.joined hplace hconsumer
        apply h.finish hconsumer
        right
        use htotal
        rw [conclude, herror]
      case h_2 => cases hstep
  | finished outcome =>
      rw [hplace] at hstep
      cases hstep

/-! ### The steps of the consumer thread -/

/-- The consumer thread moves. -/
theorem Control.moveConsumer (h : s.Control settings)
    {stream : Disruptor.State SequenceType Event} {samples received : List Int64}
    {result : Measurement} {place : ConsumerPlace} {view : ℕ}
    (hnot : s.consumerPlace ≠ .catching ∧ s.consumerPlace ≠ .finished)
    (hwritten : stream.producer.written = s.stream.producer.written)
    (hplace : place ≠ .catching)
    (hready : s.consumerPlace.isReady = true → place.isReady = true)
    (hconsumed : place = .finished → s.consumerError.isSome = true
      ∨ (stream.consumer 0).handled.length = settings.total.toNat
      ∨ s.producerPlace.gaveUp = true) :
  Control settings
    { s with
      stream := stream
      samples := samples
      result := result
      consumerPlace := place
      consumerFailedView := view
      received := received }
  := by
  constructor
  · apply h.error
  · intro hsome
    rcases h.thrown hsome with hcatching | hfinished
    · cases hnot.1 hcatching
    · cases hnot.2 hfinished
  · intro hcatching
    cases hplace hcatching
  · intro hraised
    obtain ⟨herror, hisReady⟩ := h.ready hraised
    use herror, hready hisReady
  · intro hsaw
    obtain ⟨herror, hisReady⟩ := h.sawReady hsaw
    use herror, hready hisReady
  · apply h.failed
  · apply hconsumed
  · rw [hwritten]
    apply h.caught
  · intro outcome houtcome
    cases hnot.2 (h.outcome outcome houtcome).1

/-- A consumer that leaves its loop has consumed all events. -/
theorem Gathered.consumed_all (h : s.Gathered settings) (hring : s.Ring settings u)
    (hplace : s.nextConsumed settings = .finished) :
  (s.stream.consumer 0).handled.length = settings.total.toNat
  := by
  obtain ⟨-, hle⟩ := hring.handled_take
  have hlt := settings.total_lt
  rw [nextConsumed] at hplace
  split at hplace
  case isTrue => cases hplace
  case isFalse hge =>
    rw [h.consumed, UInt64.lt_iff_toNat_lt, UInt64.toNat_ofNat', Nat.mod_eq_of_lt (by omega)]
      at hge
    omega

theorem isReady_nextConsumed : (s.nextConsumed settings).isReady = true := by
  rw [nextConsumed]
  split
  · rfl
  · rfl

theorem nextConsumed_ne : s.nextConsumed settings ≠ .catching := by
  rw [nextConsumed]
  split
  · simp
  · simp

/-- After a step of `consume_available` the consumer is ready still. -/
theorem Control.afterConsume (h : s.Control settings)
    {stream : Disruptor.State SequenceType Event}
    (hnot : s.consumerPlace ≠ .catching ∧ s.consumerPlace ≠ .finished)
    (hwritten : stream.producer.written = s.stream.producer.written)
    (hgathered : (s.afterConsume settings stream).Gathered settings)
    (hring : (s.afterConsume settings stream).Ring settings u) :
  (s.afterConsume settings stream).Control settings
  := by
  rw [State.afterConsume] at hgathered hring ⊢
  split
  case h_1 hpc =>
    rw [hpc] at hgathered hring
    dsimp only at hgathered hring
    split
    case isTrue =>
      apply h.moveConsumer hnot hwritten
      · simp
      · intro _
        rfl
      · intro hplace
        cases hplace
    case isFalse hreturned =>
      rw [if_neg hreturned] at hgathered hring
      apply h.moveConsumer hnot hwritten
      · apply nextConsumed_ne
      · intro _
        apply isReady_nextConsumed
      · intro hplace
        right
        left
        apply hgathered.consumed_all hring hplace
  case h_2 =>
    apply h.moveConsumer hnot hwritten
    · simp
    · intro _
      rfl
    · intro hplace
      cases hplace

/-- A thread that has thrown nothing and is not about to. -/
theorem Control.error_none (h : s.Control settings)
    (hnot : s.consumerPlace ≠ .catching ∧ s.consumerPlace ≠ .finished) :
  s.consumerError = none
  := by
  cases herror : s.consumerError with
  | none => rfl
  | some failure =>
      rcases h.thrown (by rw [herror]; rfl) with hcatching | hfinished
      · cases hnot.1 hcatching
      · cases hnot.2 hfinished

/-- The consumer thread is ready. -/
theorem Control.storeReady (h : s.Control settings) (hplace : s.consumerPlace = .ready)
    (hgathered : s.Gathered settings) (hring : s.Ring settings u) :
  Control settings
    { s with ready := s.ready.store true, consumerPlace := s.nextConsumed settings }
  := by
  have herror := h.error_none (by rw [hplace]; simp)
  constructor
  · apply h.error
  · intro hsome
    rw [herror] at hsome
    cases hsome
  · intro hcatching
    cases nextConsumed_ne hcatching
  · intro _
    use herror
    apply isReady_nextConsumed
  · intro _
    use herror
    apply isReady_nextConsumed
  · apply h.failed
  · intro hfinished
    right
    left
    apply hgathered.consumed_all hring hfinished
  · apply h.caught
  · intro outcome houtcome
    have hfinished := (h.outcome outcome houtcome).1
    rw [hplace] at hfinished
    cases hfinished

/-- The consumer thread throws. -/
theorem Control.throwConsumer (h : s.Control settings) {failure : PinFailure}
    (hplace : s.consumerPlace = .pin) :
  Control settings
    { s with consumerError := some (.pin failure), consumerPlace := .catching }
  := by
  constructor
  · intro failure' hfailure
    obtain rfl := Option.some.inj hfailure
    use failure
  · intro _
    left
    rfl
  · intro _
    rfl
  · intro hraised
    have hready := (h.ready hraised).2
    rw [hplace] at hready
    cases hready
  · intro hsaw
    have hready := (h.sawReady hsaw).2
    rw [hplace] at hready
    cases hready
  · intro _
    left
    rfl
  · intro _
    left
    rfl
  · apply h.caught
  · intro outcome houtcome
    have hfinished := (h.outcome outcome houtcome).1
    rw [hplace] at hfinished
    cases hfinished

/-- The consumer thread stores `failed`. -/
theorem Control.finishConsumer (h : s.Control settings) (hplace : s.consumerPlace = .catching) :
  Control settings
    { s with failed := s.failed.store true, consumerPlace := .finished }
  := by
  have hsome := h.catching hplace
  constructor
  · apply h.error
  · intro _
    right
    rfl
  · intro hcatching
    cases hcatching
  · intro hraised
    have hready := (h.ready hraised).2
    rw [hplace] at hready
    cases hready
  · intro hsaw
    have hready := (h.sawReady hsaw).2
    rw [hplace] at hready
    cases hready
  · intro _
    left
    apply hsome
  · intro _
    left
    apply hsome
  · apply h.caught
  · intro outcome houtcome
    have hfinished := (h.outcome outcome houtcome).1
    rw [hplace] at hfinished
    cases hfinished

theorem handled_consumerPlace (now : Int64) (stream : Disruptor.State SequenceType Event) :
  (s.handled now stream).consumerPlace = s.consumerPlace
  := by
  rw [State.handled]
  split
  · rfl
  · rfl

theorem handled_stream_eq (now : Int64) (stream : Disruptor.State SequenceType Event) :
  (s.handled now stream).stream = s.stream
  := by
  rw [State.handled]
  split
  · rfl
  · rfl

/-- A step of the ring by the consumer leaves what is written. -/
theorem written_of_consumer {stream : Disruptor.State SequenceType Event}
    {a : Disruptor.ConsumerAction}
    (hstream : s.stream.step geometry.wrapping geometry (.consumer 0 a) = some stream) :
  stream.producer.written = s.stream.producer.written
  := by
  obtain ⟨c, -, rfl⟩ := Disruptor.State.step_consumer.mp hstream
  rfl

theorem Control.handled (h : s.Control settings) {now : Int64}
    {stream : Disruptor.State SequenceType Event}
    (hnot : s.consumerPlace ≠ .catching ∧ s.consumerPlace ≠ .finished) :
  (s.handled now stream).Control settings
  := by
  rw [State.handled]
  split
  · apply h.moveConsumer hnot rfl hnot.1
    · intro hready
      apply hready
    · intro hfinished
      cases hnot.2 hfinished
  · apply h

/-- The steps of the consumer thread keep what the flags tell. -/
theorem Control.stepConsumer (h : s.Control settings) (hgathered : s.Gathered settings)
    (hring : s.Ring settings u) {place : ℕ} {now : Int64}
    (hstep : s.stepConsumer settings place now = some s') :
  s'.Control settings
  := by
  have hgathered' := hgathered.stepConsumer hring hstep
  obtain ⟨u', hring'⟩ := hring.stepConsumer hstep
  rw [State.stepConsumer] at hstep
  cases hplace : s.consumerPlace with
  | makeConsumer =>
      rw [hplace] at hstep
      obtain ⟨stream, hstream, rfl⟩ := Option.map_eq_some_iff.mp hstep
      apply h.moveConsumer (by rw [hplace]; simp) (written_of_consumer hstream)
      · simp
      · intro hready
        rw [hplace] at hready
        cases hready
      · simp
  | pin =>
      rw [hplace] at hstep
      obtain rfl := Option.some.inj hstep
      apply h.moveConsumer (by rw [hplace]; simp) rfl
      · simp
      · intro hready
        rw [hplace] at hready
        cases hready
      · simp
  | ready =>
      rw [hplace] at hstep
      obtain rfl := Option.some.inj hstep
      apply h.storeReady hplace hgathered hring
  | consume =>
      rw [hplace] at hstep
      obtain ⟨stream, hstream, rfl⟩ := Option.map_eq_some_iff.mp hstep
      apply h.afterConsume (by rw [hplace]; simp) (written_of_consumer hstream)
        hgathered' hring'
  | consuming =>
      rw [hplace] at hstep
      obtain ⟨stream, hstream, rfl⟩ := Option.map_eq_some_iff.mp hstep
      have hwritten : stream.producer.written = (s.handled now stream).stream.producer.written := by
        rw [handled_stream_eq]
        apply written_of_consumer hstream
      have hnot : (s.handled now stream).consumerPlace ≠ .catching
          ∧ (s.handled now stream).consumerPlace ≠ .finished := by
        rw [handled_consumerPlace, hplace]
        simp
      apply Control.afterConsume _ hnot hwritten hgathered' hring'
      apply h.handled
      rw [hplace]
      simp
  | checkFailed =>
      rw [hplace] at hstep
      obtain ⟨failed, hload, rfl⟩ := Option.map_eq_some_iff.mp hstep
      apply h.moveConsumer (by rw [hplace]; simp) rfl
      · split
        · simp
        · simp
      · intro _
        split
        · rfl
        · rfl
      · intro hfinished
        split at hfinished
        case isTrue htrue =>
          subst htrue
          rcases h.failed (raised_of_load hload) with hsome | hgave
          · left
            apply hsome
          · right
            right
            apply hgave
        case isFalse => cases hfinished
  | catching =>
      rw [hplace] at hstep
      obtain rfl := Option.some.inj hstep
      apply h.finishConsumer hplace
  | finished =>
      rw [hplace] at hstep
      cases hstep

end State

end PairedLatency
