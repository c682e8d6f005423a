import LowLatency.Library.Fairness
import LowLatency.Library.Progress
import LowLatency.PairedLatency.Outcome

/-!
# What is left of the paired latency benchmark

The rank of a state bounds what is left to do for the two threads. Each of their steps decreases
it, except for the polls by which a thread waits for the other one.
-/

open Disruptor (SequenceType Geometry toWord)

namespace PairedLatency

variable {settings : Config}

/-! ### Where the threads stand -/

/-- A call for one event. -/
def Single {P : Type} : Disruptor.ConsumerPc P → Prop
  | .loadPublished _ maxCount => maxCount = 1
  | .handle _ count index => count = 1 ∧ index = 0
  | .running _ count index => count = 1 ∧ index = 0
  | .store _ count => count = 1
  | _ => False

/-- The call may still return without an event, or has not called the handler yet. -/
def Expecting {P : Type} : Disruptor.ConsumerPc P → Prop
  | .loadPublished _ _ | .handle _ _ _ => True
  | _ => False

/-- Where the consumer thread stands tells where its handle stands in a call, and that there is
an event left to expect. -/
def Seat (settings : Config) (c : Disruptor.Consumer SequenceType Event) : ConsumerPlace → Prop
  | .makeConsumer => c.pc = .idle ∧ c.handle = none
  | .consume | .checkFailed =>
      c.pc = .idle ∧ c.handle.isSome = true ∧ c.handled.length < settings.total.toNat
  | .consuming =>
      Single c.pc ∧ c.handle.isSome = true ∧
        (Expecting c.pc → c.handled.length < settings.total.toNat)
  | _ => c.pc = .idle ∧ c.handle.isSome = true

/-- The steps left in a call for one event, and in the loop around it. -/
def callRank {P : Type} : Disruptor.ConsumerPc P → ℕ
  | .loadPublished _ _ => 2
  | .handle _ _ _ => 1
  | .running _ _ _ => 4
  | .store _ _ => 3
  | _ => 0

/-- The rank of the consumer thread. -/
def consumerRank (total : ℕ) (c : Disruptor.Consumer SequenceType Event) : ConsumerPlace → ℕ
  | .makeConsumer => 4 * total + 5
  | .pin => 4 * total + 4
  | .ready => 4 * total + 3
  | .consume | .checkFailed => 4 * (total - c.handled.length) + 2
  | .consuming => 4 * (total - c.handled.length) + callRank c.pc
  | .catching => 1
  | .finished => 0

/-- The rank of the main thread, which stands at `pc` in a call. -/
def producerRank (total : ℕ) (pc : Disruptor.ProducerPc SequenceType Event) :
    ProducerPlace → ℕ
  | .waitReady | .checkReady => 8 * total + 4
  | .pin => 8 * total + 3
  | .publish published | .checkPublish published => 8 * (total - published) + 2
  | .publishing published =>
      8 * (total - (published + 1)) + 3 + Disruptor.Producer.remaining geometry pc
  | .waitReleased published | .checkReleased published => 8 * (total - (published + 1)) + 3
  | .catching _ => 2
  | .joiningToThrow _ | .joining => 1
  | .finished _ => 0

namespace State

variable {s s' : State} {u u' : Disruptor.State ℕ Event}

/-- What the steps of both threads rely on. -/
structure Live (settings : Config) (s : State) : Prop where
  session : s.stream.producer.session.isSome = true
  seat : Seat settings (s.stream.consumer 0) s.consumerPlace
  readyView_le : s.readyView ≤ s.ready.last
  failedView_le : s.failedView ≤ s.failed.last
  consumerFailedView_le : s.consumerFailedView ≤ s.failed.last
  flagged : s.consumerPlace.isReady = true → s.ready.current = true ∨ s.failed.current = true
  gaveUp : ∀ error, s.producerPlace = .joiningToThrow error → s.failed.current = true

theorem live_init (settings : Config) :
  (State.init settings).Live settings
  := by
  constructor
  · rfl
  · exact ⟨rfl, rfl⟩
  · apply Nat.le_refl
  · apply Nat.le_refl
  · apply Nat.le_refl
  · intro hready
    cases hready
  · intro error hplace
    cases hplace

/-! ### The main thread -/

/-- The main thread moves. -/
theorem Live.moveProducer (h : s.Live settings) {stream : Disruptor.State SequenceType Event}
    {result : Measurement} {place : ProducerPlace} {readyView failedView releasedView : ℕ}
    (hconsumer : stream.consumer = s.stream.consumer)
    (hsession : stream.producer.session.isSome = s.stream.producer.session.isSome)
    (hready : readyView ≤ s.ready.last) (hfailed : failedView ≤ s.failed.last)
    (hplace : ∀ error, place ≠ .joiningToThrow error) :
  Live settings
    { s with
      stream := stream
      result := result
      producerPlace := place
      readyView := readyView
      failedView := failedView
      releasedView := releasedView }
  := by
  constructor
  · rw [hsession]
    apply h.session
  · rw [hconsumer]
    apply h.seat
  · apply hready
  · apply hfailed
  · apply h.consumerFailedView_le
  · apply h.flagged
  · intro error hjoining
    cases hplace error hjoining

theorem nextEvent_ne {published : ℕ} {error : Option Failure} :
  nextEvent settings published ≠ .joiningToThrow error
  := by
  rcases nextEvent_cases settings published with hplace | hplace
  · rw [hplace]
    simp
  · rw [hplace]
    simp

theorem Live.afterPublish (h : s.Live settings) {published : ℕ}
    {stream : Disruptor.State SequenceType Event}
    (hconsumer : stream.consumer = s.stream.consumer)
    (hsession : stream.producer.session.isSome = s.stream.producer.session.isSome) :
  (s.afterPublish published stream).Live settings
  := by
  rw [State.afterPublish]
  split
  · split
    · exact h.moveProducer hconsumer hsession h.readyView_le h.failedView_le (by simp)
    · exact h.moveProducer hconsumer hsession h.readyView_le h.failedView_le (by simp)
  · exact h.moveProducer hconsumer hsession h.readyView_le h.failedView_le (by simp)

theorem Live.afterFailed (h : s.Live settings) {place : ℕ} {next : ProducerPlace} {failed : Bool}
    (hload : s.failed.load s.failedView place = some failed)
    (hnext : ∀ error, next ≠ .joiningToThrow error) :
  (s.afterFailed place next failed).Live settings
  := by
  obtain ⟨-, hlast, -⟩ := Location.load_eq_some_iff.mp hload
  rw [State.afterFailed]
  split
  · exact h.moveProducer rfl rfl h.readyView_le hlast (by simp)
  · apply h.moveProducer rfl rfl h.readyView_le hlast hnext

theorem Live.stepProducer (h : s.Live settings) {place : ℕ} {now : Int64}
    (hstep : s.stepProducer settings place now = some s') :
  s'.Live settings
  := by
  rw [State.stepProducer] at hstep
  cases hplace : s.producerPlace with
  | waitReady =>
      rw [hplace] at hstep
      obtain ⟨ready, hload, rfl⟩ := Option.map_eq_some_iff.mp hstep
      obtain ⟨-, hlast, -⟩ := Location.load_eq_some_iff.mp hload
      apply h.moveProducer rfl rfl hlast h.failedView_le
      intro error hjoining
      split at hjoining
      all_goals cases hjoining
  | checkReady =>
      rw [hplace] at hstep
      obtain ⟨failed, hload, rfl⟩ := Option.map_eq_some_iff.mp hstep
      exact h.afterFailed hload (by simp)
  | pin =>
      rw [hplace] at hstep
      obtain rfl := Option.some.inj hstep
      apply h.moveProducer rfl rfl h.readyView_le h.failedView_le
      intro error
      apply nextEvent_ne
  | publish published =>
      rw [hplace] at hstep
      obtain ⟨stream, hstream, rfl⟩ := Option.map_eq_some_iff.mp hstep
      have hs' := Disruptor.State.step_publish (Or.inr rfl) hstream
      subst hs'
      refine h.afterPublish rfl ?_
      apply (Disruptor.Producer.sameHandles_tryPublishBatch _ _).isSome
  | publishing published =>
      rw [hplace] at hstep
      dsimp only at hstep
      split at hstep
      case isTrue =>
        obtain ⟨stream, hstream, rfl⟩ := Option.map_eq_some_iff.mp hstep
        obtain ⟨q, hq, rfl⟩ := Disruptor.State.step_producer.mp hstream
        refine h.afterPublish rfl ?_
        apply (Disruptor.Producer.sameHandles_resume hq).isSome
      case isFalse => cases hstep
  | checkPublish published =>
      rw [hplace] at hstep
      obtain ⟨failed, hload, rfl⟩ := Option.map_eq_some_iff.mp hstep
      exact h.afterFailed hload (by simp)
  | waitReleased published =>
      rw [hplace] at hstep
      obtain ⟨v, -, rfl⟩ := Option.map_eq_some_iff.mp hstep
      rw [State.afterPosition]
      split
      · exact h.moveProducer rfl rfl h.readyView_le h.failedView_le (by simp)
      · apply h.moveProducer rfl rfl h.readyView_le h.failedView_le
        intro error
        apply nextEvent_ne
  | checkReleased published =>
      rw [hplace] at hstep
      obtain ⟨failed, hload, rfl⟩ := Option.map_eq_some_iff.mp hstep
      exact h.afterFailed hload (by simp)
  | catching error =>
      rw [hplace] at hstep
      obtain rfl := Option.some.inj hstep
      constructor
      · apply h.session
      · apply h.seat
      · apply h.readyView_le
      · apply Nat.le_succ_of_le h.failedView_le
      · apply Nat.le_succ_of_le h.consumerFailedView_le
      · intro _
        right
        apply Location.current_store
      · intro _ _
        apply Location.current_store
  | joiningToThrow error =>
      rw [hplace] at hstep
      dsimp only at hstep
      split at hstep
      case h_1 =>
        obtain rfl := Option.some.inj hstep
        exact h.moveProducer rfl rfl h.readyView_le h.failedView_le (by simp)
      case h_2 => cases hstep
  | joining =>
      rw [hplace] at hstep
      dsimp only at hstep
      split at hstep
      case h_1 =>
        obtain rfl := Option.some.inj hstep
        exact h.moveProducer rfl rfl h.readyView_le h.failedView_le (by simp)
      case h_2 => cases hstep
  | finished outcome =>
      rw [hplace] at hstep
      cases hstep

/-- A poll of the main thread: a step by which it waits for the consumer. -/
inductive ProducerPoll (s : State) (place : ℕ) : State → Prop where
  | ready (hplace : s.producerPlace = .waitReady)
      (hload : s.ready.load s.readyView place = some false) :
      ProducerPoll s place { s with readyView := place, producerPlace := .checkReady }
  | readyFailed (hplace : s.producerPlace = .checkReady)
      (hload : s.failed.load s.failedView place = some false) :
      ProducerPoll s place { s with failedView := place, producerPlace := .waitReady }
  | released (published : ℕ) (hplace : s.producerPlace = .waitReleased published)
      (hlt : s.stream.consumerPosition geometry 0 place < BitVec.ofNat 64 (published + 1)) :
      ProducerPoll s place
        { s with releasedView := place, producerPlace := .checkReleased published }
  | releasedFailed (published : ℕ) (hplace : s.producerPlace = .checkReleased published)
      (hload : s.failed.load s.failedView place = some false) :
      ProducerPoll s place
        { s with failedView := place, producerPlace := .waitReleased published }

/-- After a step of its call the main thread stands in it, or waits for the consumer. -/
theorem Ring.rank_afterPublish {published : ℕ} {stream : Disruptor.State SequenceType Event}
    (h : (s.afterPublish published stream).Ring settings u) :
  producerRank settings.total.toNat (s.afterPublish published stream).stream.producer.pc
      (s.afterPublish published stream).producerPlace
    = 8 * (settings.total.toNat - (published + 1)) + 3
      + Disruptor.Producer.remaining geometry stream.producer.pc
  := by
  have hstanding := h.standing
  rw [State.afterPublish] at hstanding ⊢
  split
  case h_1 hpc =>
    rw [hpc] at hstanding ⊢
    dsimp only at hstanding ⊢
    split
    case isTrue => rfl
    case isFalse hfalse =>
      rw [if_neg hfalse] at hstanding
      cases hstanding
  case h_2 => rfl

theorem rank_nextEvent (settings : Config) (pc : Disruptor.ProducerPc SequenceType Event)
    (published : ℕ) :
  producerRank settings.total.toNat pc (nextEvent settings published)
    ≤ 8 * (settings.total.toNat - published) + 2
  := by
  rcases nextEvent_cases settings published with hplace | hplace
  · rw [hplace]
    apply Nat.le_refl
  · rw [hplace]
    simp only [producerRank]
    omega

/-- The steps of the main thread decrease its rank, except for a poll. -/
theorem Ring.rank_stepProducer (h : s.Ring settings u) (h' : s'.Ring settings u') {place : ℕ}
    {now : Int64} (hstep : s.stepProducer settings place now = some s') :
  producerRank settings.total.toNat s'.stream.producer.pc s'.producerPlace
      < producerRank settings.total.toNat s.stream.producer.pc s.producerPlace
    ∨ ProducerPoll s place s'
  := by
  have hstanding := h.standing
  rw [State.stepProducer] at hstep
  cases hplace : s.producerPlace with
  | waitReady =>
      rw [hplace] at hstep
      obtain ⟨ready, hload, rfl⟩ := Option.map_eq_some_iff.mp hstep
      cases ready with
      | true =>
          left
          simp only [producerRank, if_true]
          omega
      | false =>
          right
          exact .ready hplace hload
  | checkReady =>
      rw [hplace] at hstep
      obtain ⟨failed, hload, rfl⟩ := Option.map_eq_some_iff.mp hstep
      cases failed with
      | true =>
          left
          simp only [State.afterFailed, producerRank, if_true]
          omega
      | false =>
          right
          exact .readyFailed hplace hload
  | pin =>
      rw [hplace] at hstep
      obtain rfl := Option.some.inj hstep
      left
      have hrank := rank_nextEvent settings s.stream.producer.pc 0
      apply Nat.lt_of_le_of_lt hrank
      simp only [producerRank]
      omega
  | publish published =>
      rw [hplace] at hstep hstanding
      obtain ⟨-, -, hlt, -⟩ := hstanding
      obtain ⟨stream, hstream, rfl⟩ := Option.map_eq_some_iff.mp hstep
      have hs' := Disruptor.State.step_publish (Or.inr rfl) hstream
      left
      have hremaining : Disruptor.Producer.remaining geometry stream.producer.pc
          ≤ geometry.consumerCount + 1 + 4 := by
        rw [hs']
        apply Disruptor.Producer.remaining_tryPublishBatch Nat.one_pos (by decide)
      have hcount : geometry.consumerCount = 1 := rfl
      rw [h'.rank_afterPublish]
      simp only [producerRank]
      omega
  | publishing published =>
      rw [hplace] at hstep hstanding
      dsimp only at hstep
      split at hstep
      case isTrue =>
        obtain ⟨stream, hstream, rfl⟩ := Option.map_eq_some_iff.mp hstep
        obtain ⟨q, hq, rfl⟩ := Disruptor.State.step_producer.mp hstream
        left
        have hremaining := Disruptor.Producer.remaining_resume hq
        rw [h'.rank_afterPublish]
        simp only [producerRank]
        omega
      case isFalse => cases hstep
  | checkPublish published =>
      rw [hplace] at hstanding
      cases hstanding
  | waitReleased published =>
      rw [hplace] at hstep
      obtain ⟨v, -, rfl⟩ := Option.map_eq_some_iff.mp hstep
      rw [State.afterPosition]
      split
      case isTrue hlt =>
        right
        exact .released published hplace hlt
      case isFalse =>
        left
        have hrank := rank_nextEvent settings s.stream.producer.pc (published + 1)
        apply Nat.lt_of_le_of_lt hrank
        simp only [producerRank]
        omega
  | checkReleased published =>
      rw [hplace] at hstep
      obtain ⟨failed, hload, rfl⟩ := Option.map_eq_some_iff.mp hstep
      cases failed with
      | true =>
          left
          simp only [State.afterFailed, producerRank, if_true]
          omega
      | false =>
          right
          exact .releasedFailed published hplace hload
  | catching error =>
      rw [hplace] at hstep
      obtain rfl := Option.some.inj hstep
      left
      simp only [producerRank]
      omega
  | joiningToThrow error =>
      rw [hplace] at hstep
      dsimp only at hstep
      split at hstep
      case h_1 =>
        obtain rfl := Option.some.inj hstep
        left
        simp only [producerRank]
        omega
      case h_2 => cases hstep
  | joining =>
      rw [hplace] at hstep
      dsimp only at hstep
      split at hstep
      case h_1 =>
        obtain rfl := Option.some.inj hstep
        left
        simp only [producerRank]
        omega
      case h_2 => cases hstep
  | finished outcome =>
      rw [hplace] at hstep
      cases hstep

theorem afterPublish_frame (published : ℕ) (stream : Disruptor.State SequenceType Event) :
  (s.afterPublish published stream).stream = stream
    ∧ (s.afterPublish published stream).consumerPlace = s.consumerPlace
  := by
  rw [State.afterPublish]
  split
  · split
    · exact ⟨rfl, rfl⟩
    · exact ⟨rfl, rfl⟩
  · exact ⟨rfl, rfl⟩

theorem afterFailed_frame (place : ℕ) (next : ProducerPlace) (failed : Bool) :
  (s.afterFailed place next failed).stream = s.stream
    ∧ (s.afterFailed place next failed).consumerPlace = s.consumerPlace
  := by
  rw [State.afterFailed]
  split
  · exact ⟨rfl, rfl⟩
  · exact ⟨rfl, rfl⟩

/-- The steps of the main thread leave the consumer thread where it stands. -/
theorem frame_of_stepProducer {place : ℕ} {now : Int64}
    (hstep : s.stepProducer settings place now = some s') :
  s'.stream.consumer = s.stream.consumer ∧ s'.consumerPlace = s.consumerPlace
  := by
  rw [State.stepProducer] at hstep
  cases hplace : s.producerPlace with
  | waitReady =>
      rw [hplace] at hstep
      obtain ⟨ready, -, rfl⟩ := Option.map_eq_some_iff.mp hstep
      exact ⟨rfl, rfl⟩
  | checkReady | checkPublish | checkReleased =>
      rw [hplace] at hstep
      obtain ⟨failed, -, rfl⟩ := Option.map_eq_some_iff.mp hstep
      obtain ⟨hstream, hconsumer⟩ := afterFailed_frame (s := s) place _ failed
      rw [hstream]
      exact ⟨rfl, hconsumer⟩
  | publish published =>
      rw [hplace] at hstep
      obtain ⟨stream, hstream, rfl⟩ := Option.map_eq_some_iff.mp hstep
      obtain ⟨q, -, rfl⟩ := Disruptor.State.step_producer.mp hstream
      obtain ⟨hafter, hconsumer⟩ := afterPublish_frame (s := s) published
        { s.stream with producer := q }
      rw [hafter]
      exact ⟨rfl, hconsumer⟩
  | publishing published =>
      rw [hplace] at hstep
      dsimp only at hstep
      split at hstep
      case isTrue =>
        obtain ⟨stream, hstream, rfl⟩ := Option.map_eq_some_iff.mp hstep
        obtain ⟨q, -, rfl⟩ := Disruptor.State.step_producer.mp hstream
        obtain ⟨hafter, hconsumer⟩ := afterPublish_frame (s := s) published
          { s.stream with producer := q }
        rw [hafter]
        exact ⟨rfl, hconsumer⟩
      case isFalse => cases hstep
  | waitReleased published =>
      rw [hplace] at hstep
      obtain ⟨v, -, rfl⟩ := Option.map_eq_some_iff.mp hstep
      rw [State.afterPosition]
      split
      · exact ⟨rfl, rfl⟩
      · exact ⟨rfl, rfl⟩
  | pin | catching =>
      rw [hplace] at hstep
      obtain rfl := Option.some.inj hstep
      exact ⟨rfl, rfl⟩
  | joiningToThrow | joining =>
      rw [hplace] at hstep
      dsimp only at hstep
      split at hstep
      case h_1 =>
        obtain rfl := Option.some.inj hstep
        exact ⟨rfl, rfl⟩
      case h_2 => cases hstep
  | finished =>
      rw [hplace] at hstep
      cases hstep

/-! ### The consumer thread -/

/-- What the next step of a call for one event leads to. -/
inductive Turned {P : Type} (A : Disruptor.PositionArithmetic P) (published : Location P)
    (place : ℕ) (c c' : Disruptor.Consumer P Event) : Prop where
  | empty (first available : P) (hpc : c.pc = .loadPublished first 1)
      (hload : published.load c.view place = some available)
      (hzero : A.distance available first = 0) (hpc' : c'.pc = .idle)
      (hreturned : c'.returned = c.returned ++ [0]) (hhandled : c'.handled = c.handled)
      (hreleased : c'.released = c.released)
  | found (first : P) (hpc : c.pc = .loadPublished first 1) (hpc' : c'.pc = .handle first 1 0)
      (hhandled : c'.handled = c.handled)
  | handled (first : P) (entry : Event × P) (hpc : c.pc = .handle first 1 0)
      (hpc' : c'.pc = .running first 1 0) (hhandled : c'.handled = c.handled ++ [entry])
  | left (first : P) (hpc : c.pc = .running first 1 0) (hpc' : c'.pc = .store first 1)
      (hhandled : c'.handled = c.handled)
  | released (first : P) (hpc : c.pc = .store first 1) (hpc' : c'.pc = .idle)
      (hreturned : c'.returned = c.returned ++ [1]) (hhandled : c'.handled = c.handled)

section Call

variable {P : Type} {A : Disruptor.PositionArithmetic P} {g : Geometry} {events : ℕ → Event}
  {published : Location P} {place : ℕ} {c c' : Disruptor.Consumer P Event}

theorem turned_of_resume (hsingle : Single c.pc)
    (h : c.resume A g events published place = some c') :
  Turned A published place c c' ∧ c'.handle.isSome = c.handle.isSome
  := by
  cases Disruptor.Consumer.resumed_of_resume h with
  | loadCursor maxCount hpc =>
      rw [hpc] at hsingle
      cases hsingle
  | loadPublished first maxCount available hpc hload =>
      rw [hpc] at hsingle
      obtain rfl : maxCount = 1 := hsingle
      rw [Disruptor.Consumer.loadPublished]
      split
      case isTrue hzero =>
        constructor
        · exact .empty first available hpc hload hzero rfl rfl rfl rfl
        · apply Option.isSome_map
      case isFalse hpos =>
        have hcount : (if A.distance available first < 1 then A.distance available first else 1)
            = 1 := if_neg (by omega)
        constructor
        · refine Turned.found first hpc ?_ rfl
          simp only [Disruptor.Consumer.begin, Disruptor.Consumer.goto, hcount]
        · apply Option.isSome_map
  | handle first count index hpc =>
      rw [hpc] at hsingle
      obtain ⟨rfl, rfl⟩ := hsingle
      exact ⟨.handled first _ hpc rfl rfl, rfl⟩
  | running first count index hpc =>
      rw [hpc] at hsingle
      obtain ⟨rfl, rfl⟩ := hsingle
      constructor
      · exact .left first hpc rfl rfl
      · apply Option.isSome_map
  | store first count hpc =>
      rw [hpc] at hsingle
      obtain rfl : count = 1 := hsingle
      exact ⟨.released first hpc rfl rfl rfl, rfl⟩

/-- What the first step of a call for one event leads to. -/
theorem pc_of_consumeHandle {i : ℕ}
    (h : c.step A g events published i (.consumeHandle 1) = some c') :
  c'.handled = c.handled ∧ c'.handle = c.handle ∧ c'.released = c.released
    ∧ ∃ first, c'.pc = .loadPublished first 1 ∨ c'.pc = .handle first 1 0
  := by
  simp only [Disruptor.Consumer.step] at h
  split at h
  case h_1 handle hpc hhandle =>
    rw [if_neg Nat.one_ne_zero] at h
    split at h
    case isTrue =>
      obtain rfl := Option.some.inj h
      exact ⟨rfl, rfl, rfl, handle.nextPosition, Or.inl rfl⟩
    case isFalse hpos =>
      obtain rfl := Option.some.inj h
      refine ⟨rfl, rfl, rfl, handle.nextPosition, Or.inr ?_⟩
      simp only [Disruptor.Consumer.begin, Disruptor.Consumer.goto]
      rw [if_neg (by omega)]
  case h_2 => cases h

end Call

/-- A poll of the consumer thread: a step by which it waits for an event. -/
inductive ConsumerPoll (s : State) (place : ℕ) : State → Prop where
  | call (c' : Disruptor.Consumer SequenceType Event) (first : SequenceType)
      (hplace : s.consumerPlace = .consume) (hpc' : c'.pc = .loadPublished first 1)
      (hhandled : c'.handled = (s.stream.consumer 0).handled)
      (hreleased : c'.released = s.stream.released 0) :
      ConsumerPoll s place
        { s with
          stream := { s.stream with consumer := Function.update s.stream.consumer 0 c' }
          consumerPlace := .consuming }
  | empty (c' : Disruptor.Consumer SequenceType Event) (first available : SequenceType)
      (hplace : s.consumerPlace = .consuming)
      (hpc : (s.stream.consumer 0).pc = .loadPublished first 1)
      (hload : s.stream.producer.published.load (s.stream.consumer 0).view place
        = some available)
      (hzero : geometry.wrapping.distance available first = 0)
      (hhandled : c'.handled = (s.stream.consumer 0).handled)
      (hreleased : c'.released = s.stream.released 0) :
      ConsumerPoll s place
        { s with
          stream := { s.stream with consumer := Function.update s.stream.consumer 0 c' }
          consumerPlace := .checkFailed }
  | failed (hplace : s.consumerPlace = .checkFailed)
      (hload : s.failed.load s.consumerFailedView place = some false) :
      ConsumerPoll s place { s with consumerFailedView := place, consumerPlace := .consume }

/-- The consumer thread moves. -/
theorem Live.moveConsumer (h : s.Live settings) {stream : Disruptor.State SequenceType Event}
    {error : Option Failure} {samples received : List Int64} {result : Measurement}
    {place : ConsumerPlace} {view : ℕ}
    (hproducer : stream.producer = s.stream.producer)
    (hseat : Seat settings (stream.consumer 0) place) (hview : view ≤ s.failed.last)
    (hready : place.isReady = true → s.consumerPlace.isReady = true) :
  Live settings
    { s with
      stream := stream
      consumerError := error
      samples := samples
      result := result
      consumerPlace := place
      consumerFailedView := view
      received := received }
  := by
  constructor
  · rw [hproducer]
    apply h.session
  · apply hseat
  · apply h.readyView_le
  · apply h.failedView_le
  · apply hview
  · intro hisReady
    apply h.flagged (hready hisReady)
  · apply h.gaveUp

/-- Where the loop of the consumer goes on there is an event left. -/
theorem Gathered.seat_nextConsumed (h : s.Gathered settings) (hring : s.Ring settings u)
    {c : Disruptor.Consumer SequenceType Event} (hpc : c.pc = .idle)
    (hhandle : c.handle.isSome = true) (hhandled : c.handled = (s.stream.consumer 0).handled) :
  Seat settings c (s.nextConsumed settings)
    ∧ consumerRank settings.total.toNat c (s.nextConsumed settings)
      ≤ 4 * (settings.total.toNat - c.handled.length) + 2
  := by
  obtain ⟨-, hle⟩ := hring.handled_take
  have hlt := settings.total_lt
  rw [nextConsumed]
  split
  case isTrue hconsumed =>
    rw [h.consumed, UInt64.lt_iff_toNat_lt, UInt64.toNat_ofNat', Nat.mod_eq_of_lt (by omega),
      ← hhandled] at hconsumed
    exact ⟨⟨hpc, hhandle, hconsumed⟩, Nat.le_refl _⟩
  case isFalse => exact ⟨⟨hpc, hhandle⟩, Nat.zero_le _⟩

theorem handled_of_ne {now : Int64} {stream : Disruptor.State SequenceType Event}
    (hpc : ∀ first count index, (s.stream.consumer 0).pc ≠ .handle first count index) :
  s.handled now stream = s
  := by
  rw [State.handled]
  split
  case h_1 first count index input sequence hhandle hlast => cases hpc first count index hhandle
  case h_2 => rfl

section After

variable {stream : Disruptor.State SequenceType Event}

theorem afterConsume_of_ne (hpc : (stream.consumer 0).pc ≠ .idle) :
  s.afterConsume settings stream = { s with stream := stream, consumerPlace := .consuming }
  := by
  rw [State.afterConsume]
  split
  case h_1 hidle => cases hpc hidle
  case h_2 => rfl

theorem afterConsume_of_idle {count : ℕ} {returned : List ℕ}
    (hpc : (stream.consumer 0).pc = .idle)
    (hreturned : (stream.consumer 0).returned = returned ++ [count]) :
  s.afterConsume settings stream
    = { s with
        stream := stream
        consumerPlace := if count = 0 then .checkFailed else s.nextConsumed settings }
  := by
  have hlast : (stream.consumer 0).returned.getLastD 0 = count := by
    rw [hreturned]
    simp
  rw [State.afterConsume, hpc]
  dsimp only
  rw [hlast]
  split
  · rfl
  · rfl

end After

/-- The steps of the call of the consumer thread decrease its rank, except for a poll. -/
theorem Live.consuming (h : s.Live settings) (hgathered : s.Gathered settings)
    (hring : s.Ring settings u) {place : ℕ} {now : Int64}
    (hplace : s.consumerPlace = .consuming) (hstep : s.stepConsumer settings place now = some s') :
  s'.Live settings
    ∧ (consumerRank settings.total.toNat (s'.stream.consumer 0) s'.consumerPlace
        < consumerRank settings.total.toNat (s.stream.consumer 0) s.consumerPlace
      ∨ ConsumerPoll s place s')
  := by
  rw [State.stepConsumer, hplace] at hstep
  obtain ⟨stream, hstream, rfl⟩ := Option.map_eq_some_iff.mp hstep
  obtain ⟨c', hc', rfl⟩ := Disruptor.State.step_consumer.mp hstream
  have hseat := h.seat
  rw [hplace] at hseat
  obtain ⟨hsingle, hhandle, hexpecting⟩ := hseat
  obtain ⟨hturned, hhandle'⟩ := turned_of_resume hsingle hc'
  rw [hhandle] at hhandle'
  have hready : ConsumerPlace.isReady .consuming = true := rfl
  rw [← hplace] at hready
  cases hturned with
  | empty first available hpc hload hzero hpc' hreturned hhandled hreleased =>
      rw [handled_of_ne (by rw [hpc]; simp),
        afterConsume_of_idle (by simpa using hpc') (by simpa using hreturned), if_pos rfl]
      rw [hpc] at hexpecting
      constructor
      · refine h.moveConsumer rfl ?_ h.consumerFailedView_le fun _ => hready
        simp only [Function.update_self]
        use hpc', hhandle'
        rw [hhandled]
        apply hexpecting trivial
      · right
        exact .empty c' first available hplace hpc hload hzero hhandled hreleased
  | found first hpc hpc' hhandled =>
      rw [handled_of_ne (by rw [hpc]; simp),
        afterConsume_of_ne (by simp [hpc'])]
      rw [hpc] at hexpecting
      constructor
      · refine h.moveConsumer rfl ?_ h.consumerFailedView_le fun _ => hready
        simp only [Function.update_self]
        rw [← hhandled] at hexpecting
        exact ⟨by rw [hpc']; exact ⟨rfl, rfl⟩, hhandle', fun _ => hexpecting trivial⟩
      · left
        simp only [Function.update_self, hplace, consumerRank, hpc, hpc', hhandled, callRank]
        omega
  | handled first entry hpc hpc' hhandled =>
      have hcalled : s.handled now
            { s.stream with consumer := Function.update s.stream.consumer 0 c' }
          = s.handler now entry.1 (UInt64.ofBitVec entry.2) := by
        rw [State.handled, hpc]
        simp only [Function.update_self, hhandled, List.getLast?_concat]
      rw [hcalled, afterConsume_of_ne (by simp [hpc'])]
      rw [hpc] at hexpecting
      have hlt := hexpecting trivial
      constructor
      · refine h.moveConsumer rfl ?_ h.consumerFailedView_le fun _ => hready
        simp only [Function.update_self]
        refine ⟨by rw [hpc']; exact ⟨rfl, rfl⟩, hhandle', ?_⟩
        rw [hpc']
        simp [Expecting]
      · left
        simp only [Function.update_self, hplace, consumerRank, hpc, hpc', hhandled, callRank,
          List.length_append, List.length_singleton]
        omega
  | left first hpc hpc' hhandled =>
      rw [handled_of_ne (by rw [hpc]; simp),
        afterConsume_of_ne (by simp [hpc'])]
      constructor
      · refine h.moveConsumer rfl ?_ h.consumerFailedView_le fun _ => hready
        simp only [Function.update_self]
        refine ⟨by rw [hpc']; rfl, hhandle', ?_⟩
        rw [hpc']
        simp [Expecting]
      · left
        simp only [Function.update_self, hplace, consumerRank, hpc, hpc', hhandled, callRank]
        omega
  | released first hpc hpc' hreturned hhandled =>
      obtain ⟨hseat', hrank⟩ := hgathered.seat_nextConsumed hring hpc' hhandle' hhandled
      rw [handled_of_ne (by rw [hpc]; simp),
        afterConsume_of_idle (by simpa using hpc') (by simpa using hreturned),
        if_neg Nat.one_ne_zero]
      constructor
      · refine h.moveConsumer rfl ?_ h.consumerFailedView_le fun _ => hready
        simp only [Function.update_self]
        apply hseat'
      · left
        simp only [Function.update_self]
        rw [hhandled] at hrank
        apply Nat.lt_of_le_of_lt hrank
        simp only [hplace, consumerRank, hpc, callRank]
        omega

/-- The steps of the consumer thread decrease its rank, except for a poll. -/
theorem Live.stepConsumer (h : s.Live settings) (hgathered : s.Gathered settings)
    (hring : s.Ring settings u) {place : ℕ} {now : Int64}
    (hstep : s.stepConsumer settings place now = some s') :
  s'.Live settings
    ∧ (consumerRank settings.total.toNat (s'.stream.consumer 0) s'.consumerPlace
        < consumerRank settings.total.toNat (s.stream.consumer 0) s.consumerPlace
      ∨ ConsumerPoll s place s')
  := by
  have hseat := h.seat
  cases hplace : s.consumerPlace with
  | makeConsumer =>
      rw [State.stepConsumer, hplace] at hstep
      obtain ⟨stream, hstream, rfl⟩ := Option.map_eq_some_iff.mp hstep
      obtain ⟨c', hc', rfl⟩ := Disruptor.State.step_consumer.mp hstream
      simp only [Disruptor.Consumer.step] at hc'
      split at hc'
      case h_1 hpc hhandle =>
        rw [if_pos zero_lt_consumerCount] at hc'
        obtain rfl := Option.some.inj hc'
        constructor
        · refine h.moveConsumer rfl ?_ h.consumerFailedView_le (by simp [ConsumerPlace.isReady])
          simp only [Function.update_self]
          exact ⟨hpc, rfl⟩
        · left
          simp only [consumerRank]
          omega
      case h_2 => cases hc'
  | pin =>
      rw [hplace] at hseat
      rw [State.stepConsumer, hplace] at hstep
      obtain rfl := Option.some.inj hstep
      constructor
      · exact h.moveConsumer rfl hseat h.consumerFailedView_le (by simp [ConsumerPlace.isReady])
      · left
        simp only [consumerRank]
        omega
  | ready =>
      rw [hplace] at hseat
      rw [State.stepConsumer, hplace] at hstep
      obtain rfl := Option.some.inj hstep
      obtain ⟨hseat', hrank⟩ := hgathered.seat_nextConsumed hring hseat.1 hseat.2 rfl
      constructor
      · constructor
        · apply h.session
        · apply hseat'
        · apply Nat.le_succ_of_le h.readyView_le
        · apply h.failedView_le
        · apply h.consumerFailedView_le
        · intro _
          left
          apply Location.current_store
        · apply h.gaveUp
      · left
        apply Nat.lt_of_le_of_lt hrank
        simp only [consumerRank]
        omega
  | consume =>
      rw [hplace] at hseat
      rw [State.stepConsumer, hplace] at hstep
      obtain ⟨hidle, hhandle, hlt⟩ := hseat
      obtain ⟨stream, hstream, rfl⟩ := Option.map_eq_some_iff.mp hstep
      obtain ⟨c', hc', rfl⟩ := Disruptor.State.step_consumer.mp hstream
      obtain ⟨hhandled, hhandle', hreleased, first, hpc'⟩ := pc_of_consumeHandle hc'
      rw [afterConsume_of_ne (by rcases hpc' with hpc' | hpc' <;> simp [hpc'])]
      constructor
      · refine h.moveConsumer rfl ?_ h.consumerFailedView_le fun _ => by rw [hplace]; rfl
        simp only [Function.update_self]
        refine ⟨?_, by rw [hhandle', hhandle], fun _ => by rw [hhandled]; apply hlt⟩
        rcases hpc' with hpc' | hpc'
        · rw [hpc']
          rfl
        · rw [hpc']
          exact ⟨rfl, rfl⟩
      · rcases hpc' with hpc' | hpc'
        · right
          exact .call c' first hplace hpc' hhandled hreleased
        · left
          simp only [Function.update_self, consumerRank, hpc', hhandled, callRank]
          omega
  | consuming =>
      have hconsuming := h.consuming hgathered hring hplace hstep
      rw [hplace] at hconsuming
      apply hconsuming
  | checkFailed =>
      rw [hplace] at hseat
      rw [State.stepConsumer, hplace] at hstep
      obtain ⟨failed, hload, rfl⟩ := Option.map_eq_some_iff.mp hstep
      obtain ⟨-, hlast, -⟩ := Location.load_eq_some_iff.mp hload
      cases failed with
      | true =>
          constructor
          · exact h.moveConsumer rfl ⟨hseat.1, hseat.2.1⟩ hlast fun _ => by rw [hplace]; rfl
          · left
            simp only [consumerRank, if_true]
            omega
      | false =>
          constructor
          · exact h.moveConsumer rfl hseat hlast fun _ => by rw [hplace]; rfl
          · right
            exact .failed hplace hload
  | catching =>
      rw [hplace] at hseat
      rw [State.stepConsumer, hplace] at hstep
      obtain rfl := Option.some.inj hstep
      constructor
      · constructor
        · apply h.session
        · apply hseat
        · apply h.readyView_le
        · apply Nat.le_succ_of_le h.failedView_le
        · apply Nat.le_succ_of_le h.consumerFailedView_le
        · intro _
          right
          apply Location.current_store
        · intro _ _
          apply Location.current_store
      · left
        simp only [consumerRank]
        omega
  | finished =>
      rw [State.stepConsumer, hplace] at hstep
      cases hstep

/-- The steps of the consumer thread leave the main thread where it stands. -/
theorem frame_of_stepConsumer {place : ℕ} {now : Int64}
    (hstep : s.stepConsumer settings place now = some s') :
  s'.stream.producer = s.stream.producer ∧ s'.producerPlace = s.producerPlace
  := by
  rw [State.stepConsumer] at hstep
  cases hplace : s.consumerPlace with
  | makeConsumer =>
      rw [hplace] at hstep
      obtain ⟨stream, hstream, rfl⟩ := Option.map_eq_some_iff.mp hstep
      obtain ⟨c, -, rfl⟩ := Disruptor.State.step_consumer.mp hstream
      exact ⟨rfl, rfl⟩
  | consume =>
      rw [hplace] at hstep
      obtain ⟨stream, hstream, rfl⟩ := Option.map_eq_some_iff.mp hstep
      obtain ⟨c, -, rfl⟩ := Disruptor.State.step_consumer.mp hstream
      obtain ⟨hafter, -, hproducer⟩ := afterConsume_stream settings s
        { s.stream with consumer := Function.update s.stream.consumer 0 c }
      rw [hafter]
      exact ⟨rfl, hproducer⟩
  | consuming =>
      rw [hplace] at hstep
      obtain ⟨stream, hstream, rfl⟩ := Option.map_eq_some_iff.mp hstep
      obtain ⟨c, -, rfl⟩ := Disruptor.State.step_consumer.mp hstream
      obtain ⟨hafter, -, hproducer⟩ := afterConsume_stream settings (s.handled now _)
        { s.stream with consumer := Function.update s.stream.consumer 0 c }
      rw [hafter, hproducer]
      exact ⟨rfl, (handled_stream now _).2⟩
  | checkFailed =>
      rw [hplace] at hstep
      obtain ⟨failed, -, rfl⟩ := Option.map_eq_some_iff.mp hstep
      exact ⟨rfl, rfl⟩
  | pin | ready | catching =>
      rw [hplace] at hstep
      obtain rfl := Option.some.inj hstep
      exact ⟨rfl, rfl⟩
  | finished =>
      rw [hplace] at hstep
      cases hstep

end State

end PairedLatency
