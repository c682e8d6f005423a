import LowLatency.Disruptor.WaitFreedom
import LowLatency.PairedLatency.Rank

/-!
# The paired latency benchmark comes to an end

The two threads wait for each other by loops which give up only when the other thread has failed.
No schedule makes a run go on forever but one that starves a thread or keeps a store from being
seen.
-/

open Disruptor (SequenceType Geometry toWord)

namespace PairedLatency

variable {settings : Config}

/-- The threads of a run. -/
inductive Thread where
  | main
  | consumer

/-- The thread that takes a step. -/
def Action.thread : Action → Thread
  | .producer _ _ | .producerFails _ => .main
  | .consumer _ _ | .consumerFails _ => .consumer

namespace State

variable {s s' : State} {u u' : Disruptor.State ℕ Event}

/-! ### Polls -/

/-- The main thread stands in a loop which waits for the consumer. -/
def mainPolls (s : State) : Bool :=
  match s.producerPlace with
  | .waitReady | .checkReady | .checkPublish _ | .waitReleased _ | .checkReleased _ => true
  | _ => false

/-- The consumer thread stands in the loop which waits for an event. -/
def consumerPolls (s : State) : Bool :=
  match s.consumerPlace, (s.stream.consumer 0).pc with
  | .consume, _ | .checkFailed, _ | .consuming, .loadPublished _ _ => true
  | _, _ => false

/-- The step is one of a loop in which a thread waits for the other one. -/
def Polls (s : State) : Action → Prop
  | .producer _ _ => s.mainPolls = true
  | .consumer _ _ => s.consumerPolls = true
  | _ => False

instance (s : State) : DecidablePred s.Polls := fun a =>
  match a with
  | .producer _ _ => inferInstanceAs (Decidable (s.mainPolls = true))
  | .consumer _ _ => inferInstanceAs (Decidable (s.consumerPolls = true))
  | .producerFails _ | .consumerFails _ => isFalse id

/-- What a loop polls is read as it is now. -/
def Fresh (s : State) : Action → Prop
  | .producer place _ =>
      match s.producerPlace with
      | .waitReady => place = s.ready.last
      | .checkReady | .checkPublish _ | .checkReleased _ => place = s.failed.last
      | .waitReleased _ => place = (s.stream.released 0).last
      | _ => True
  | .consumer place _ =>
      match s.consumerPlace, (s.stream.consumer 0).pc with
      | .checkFailed, _ => place = s.failed.last
      | .consuming, .loadPublished _ _ => place = s.stream.producer.published.last
      | _, _ => True
  | _ => True

/-- A step of a loop in which a thread waits, and goes on to wait. -/
inductive Waits (s : State) : Action → State → Prop where
  | main (place : ℕ) (now : Int64) (s' : State) (hpoll : ProducerPoll s place s') :
      Waits s (.producer place now) s'
  | consumer (place : ℕ) (now : Int64) (s' : State) (hpoll : ConsumerPoll s place s') :
      Waits s (.consumer place now) s'

/-! ### The rank -/

/-- The rank of a state. -/
def rank (settings : Config) (s : State) : ℕ :=
  producerRank settings.total.toNat s.stream.producer.pc s.producerPlace
    + consumerRank settings.total.toNat (s.stream.consumer 0) s.consumerPlace

theorem ProducerPoll.mainPolls {place : ℕ} (h : ProducerPoll s place s') :
  s.mainPolls = true
  := by
  cases h with
  | ready hplace | readyFailed hplace | released _ hplace | releasedFailed _ hplace =>
      simp only [State.mainPolls, hplace]

theorem ProducerPoll.rank_eq {place : ℕ} (h : ProducerPoll s place s') :
  s'.rank settings = s.rank settings
  := by
  cases h with
  | ready hplace | readyFailed hplace | released _ hplace | releasedFailed _ hplace =>
      simp only [rank, hplace, producerRank]

theorem ConsumerPoll.consumerPolls {place : ℕ} (h : ConsumerPoll s place s') :
  s.consumerPolls = true
  := by
  cases h with
  | call c' first hplace | failed hplace => simp only [State.consumerPolls, hplace]
  | empty c' first available hplace hpc => simp only [State.consumerPolls, hplace, hpc]

theorem ConsumerPoll.rank_eq {place : ℕ} (h : ConsumerPoll s place s') :
  s'.rank settings = s.rank settings
  := by
  cases h with
  | call c' first hplace hpc' hhandled =>
      simp only [rank, hplace, Function.update_self, consumerRank, hpc', hhandled, callRank]
  | empty c' first available hplace hpc hload hzero hhandled =>
      simp only [rank, hplace, Function.update_self, consumerRank, hpc, hhandled, callRank]
  | failed hplace => simp only [rank, hplace, consumerRank]

/-- A step of a thread decreases the rank, unless the thread waits and goes on to wait. -/
theorem Live.step (h : s.Live settings) (hinv : s.Inv settings u) {a : Action}
    (hstep : s.step settings a = some s') :
  s'.Live settings ∧ (s'.rank settings < s.rank settings ∨ s.Waits a s')
  := by
  cases a with
  | producer place now =>
      use h.stepProducer hstep
      obtain ⟨u', hring⟩ := hinv.ring.stepProducer hstep
      obtain ⟨hconsumer, hplace⟩ := frame_of_stepProducer hstep
      rcases hinv.ring.rank_stepProducer hring hstep with hlt | hpoll
      · left
        simp only [rank, hconsumer, hplace]
        omega
      · right
        exact .main place now s' hpoll
  | producerFails failure =>
      simp only [State.step, failProducer] at hstep
      split at hstep
      case h_1 hplace =>
        obtain rfl := Option.some.inj hstep
        constructor
        · exact h.moveProducer rfl rfl h.readyView_le h.failedView_le (by simp)
        · left
          simp only [rank, hplace, producerRank]
          omega
      case h_2 => cases hstep
  | consumer place now =>
      obtain ⟨hlive, hrank⟩ := h.stepConsumer hinv.gathered hinv.ring hstep
      use hlive
      obtain ⟨hproducer, hplace⟩ := frame_of_stepConsumer hstep
      rcases hrank with hlt | hpoll
      · left
        simp only [rank, hproducer, hplace]
        omega
      · right
        exact .consumer place now s' hpoll
  | consumerFails failure =>
      have hseat := h.seat
      simp only [State.step, failConsumer] at hstep
      split at hstep
      case h_1 hplace =>
        rw [hplace] at hseat
        obtain rfl := Option.some.inj hstep
        constructor
        · exact h.moveConsumer rfl hseat h.consumerFailedView_le (by simp [ConsumerPlace.isReady])
        · left
          simp only [rank, hplace, consumerRank]
          omega
      case h_2 => cases hstep

theorem Waits.rank_eq {a : Action} (h : s.Waits a s') (settings : Config) :
  s'.rank settings = s.rank settings ∧ s.Polls a
  := by
  cases h with
  | main place now s' hpoll => exact ⟨hpoll.rank_eq, hpoll.mainPolls⟩
  | consumer place now s' hpoll => exact ⟨hpoll.rank_eq, hpoll.consumerPolls⟩

/-- What holds at every reachable state. -/
def Sound (settings : Config) (s : State) : Prop :=
  s.Live settings ∧ ∃ u, s.Inv settings u

theorem sound_of_reachable (hs : (runLatency settings).Reachable s) :
  s.Sound settings
  := by
  apply hs.invariant
  · use live_init settings
    apply exists_inv (TransitionSystem.Reachable.initial _)
  · rintro a s s' ⟨hlive, u, hinv⟩ hstep
    use (hlive.step hinv hstep).1
    apply hinv.step hstep

/-- The rank pays for every step of a run but the polls. -/
theorem pays (settings : Config) :
  (runLatency settings).Pays State.Polls (Sound settings) (rank settings)
  := by
  rintro a s s' ⟨hlive, u, hinv⟩ hstep
  obtain ⟨hlive', hrank⟩ := hlive.step hinv hstep
  refine ⟨⟨hlive', hinv.step hstep⟩, ?_⟩
  rcases hrank with hlt | hwaits
  · split
    · omega
    · omega
  · obtain ⟨hrank, hpolls⟩ := hwaits.rank_eq settings
    rw [if_pos hpolls, hrank]
    omega

/-! ### The thread which helps -/

/-- The consumer thread goes on by itself, once it sees the stores that have been made. -/
def consumerGoes (s : State) : Bool :=
  match s.consumerPlace with
  | .finished => false
  | _ => !s.consumerPolls || s.failed.current
      || s.stream.producer.published.current != (s.stream.released 0).current

/-- The thread which helps. -/
def helpful (s : State) : Thread :=
  if s.consumerGoes = true then .consumer else .main

/-- The polls the consumer thread takes before it goes on. -/
def consumerTurns (s : State) : ℕ :=
  match s.consumerPlace with
  | .consume => if s.failed.current = true then 2 else 1
  | .consuming => if s.failed.current = true then 1 else 0
  | .checkFailed => if s.failed.current = true then 0 else 2
  | _ => 0

/-- The polls the main thread takes before it goes on. -/
def mainTurns (s : State) : ℕ :=
  match s.producerPlace with
  | .waitReady | .waitReleased _ => if s.failed.current = true then 1 else 0
  | .checkReady | .checkReleased _ => if s.failed.current = true then 0 else 1
  | _ => 0

/-- The polls which the thread that helps takes before it goes on. -/
def turns (s : State) : ℕ :=
  match s.helpful with
  | .consumer => s.consumerTurns
  | .main => s.mainTurns

/-- The measure which the thread that helps decreases. -/
def measure (settings : Config) (s : State) : ℕ :=
  3 * s.rank settings + s.turns

theorem turns_le (s : State) : s.turns ≤ 2 := by
  have hconsumer : s.consumerTurns ≤ 2 := by
    simp only [consumerTurns]
    split
    all_goals try split_ifs
    all_goals omega
  have hmain : s.mainTurns ≤ 2 := by
    simp only [mainTurns]
    split
    all_goals try split_ifs
    all_goals omega
  rw [turns]
  split
  · apply hconsumer
  · apply hmain

/-- A poll leaves the thread which helps, and the turns of the other thread. -/
theorem ProducerPoll.helpful_eq {place : ℕ} (h : ProducerPoll s place s') :
  s'.helpful = s.helpful ∧ s'.consumerTurns = s.consumerTurns
  := by
  cases h with
  | ready | readyFailed | released | releasedFailed => exact ⟨rfl, rfl⟩

theorem ConsumerPoll.helpful_eq {place : ℕ} (h : ConsumerPoll s place s') :
  s'.helpful = s.helpful ∧ s'.mainTurns = s.mainTurns
  := by
  cases h with
  | call c' first hplace hpc' hhandled hreleased =>
      constructor
      · simp only [helpful, consumerGoes, State.consumerPolls, hplace, Disruptor.State.released,
          Function.update_self, hpc', hreleased]
      · rfl
  | empty c' first available hplace hpc hload hzero hhandled hreleased =>
      constructor
      · simp only [helpful, consumerGoes, State.consumerPolls, hplace, Disruptor.State.released,
          Function.update_self, hpc, hreleased]
      · rfl
  | failed hplace =>
      constructor
      · simp only [helpful, consumerGoes, State.consumerPolls, hplace]
        rfl
      · rfl

/-! ### What the thread that does not go on waits for -/

theorem not_goes_cases (h : s.consumerGoes = false) :
  s.consumerPlace = .finished
    ∨ s.consumerPolls = true ∧ s.failed.current = false
      ∧ s.stream.producer.published.current = (s.stream.released 0).current
  := by
  rw [consumerGoes] at h
  split at h
  case h_1 hplace =>
    left
    apply hplace
  case h_2 =>
    right
    simpa [and_assoc] using h

theorem isReady_of_polls (h : s.consumerPolls = true) : s.consumerPlace.isReady = true := by
  rw [consumerPolls] at h
  cases hplace : s.consumerPlace with
  | consume | consuming | checkFailed | finished => rfl
  | makeConsumer | pin | ready | catching =>
      rw [hplace] at h
      cases h

/-- Where the main thread waits for a position, or joins the consumer, and the consumer thread does
not go on, all that is published is released. -/
theorem Inv.caughtUp (h : s.Inv settings u) (hlive : s.Live settings)
    (hgoes : s.consumerGoes = false) (hsaw : s.producerPlace.sawReady = true)
    (hgave : s.producerPlace.gaveUp = false) :
  s.stream.producer.published.current = (s.stream.released 0).current
  := by
  rcases not_goes_cases hgoes with hplace | ⟨-, -, heq⟩
  · obtain ⟨hlength, hle, -⟩ := h.ring.handled_eq
    have hseat := hlive.seat
    rw [hplace, ← h.ring.stream] at hseat
    rw [Disruptor.Consumer.pc_eq_idle hseat.1] at hlength
    simp only [Disruptor.Consumer.done] at hlength
    have htotal : (s.stream.consumer 0).handled.length = settings.total.toNat := by
      rcases h.control.consumed hplace with hsome | htotal | hgave'
      · rw [(h.control.sawReady hsaw).1] at hsome
        cases hsome
      · apply htotal
      · rw [hgave] at hgave'
        cases hgave'
    have hcurrent := h.ring.standing.current_le
    have heq : u.producer.published.current = (u.released 0).current := by omega
    rw [← h.ring.stream, Disruptor.State.current_released_map, ← heq]
    rfl
  · apply heq

/-- A poll of the main thread which reads what there is comes closer to the end of the wait, if
the consumer thread does not go on. -/
theorem ProducerPoll.turns_lt {place : ℕ} {now : Int64} (h : ProducerPoll s place s')
    (hinv : s.Inv settings u) (hlive : s.Live settings) (hgoes : s.consumerGoes = false)
    (hfresh : s.Fresh (.producer place now)) :
  s'.mainTurns < s.mainTurns
  := by
  cases h with
  | ready hplace hload =>
      obtain ⟨-, -, hvalue⟩ := Location.load_eq_some_iff.mp hload
      simp only [Fresh, hplace] at hfresh
      subst hfresh
      have hready : s.consumerPlace.isReady = true := by
        rcases not_goes_cases hgoes with hfinished | ⟨hpolls, -⟩
        · rw [hfinished]
          rfl
        · apply isReady_of_polls hpolls
      have hfailed : s.failed.current = true := by
        rcases hlive.flagged hready with hcurrent | hfailed
        · rw [Location.current, hvalue] at hcurrent
          cases hcurrent
        · apply hfailed
      simp only [mainTurns, hplace, hfailed, if_true]
      omega
  | readyFailed hplace hload =>
      obtain ⟨-, -, hvalue⟩ := Location.load_eq_some_iff.mp hload
      simp only [Fresh, hplace] at hfresh
      subst hfresh
      have hfailed : s.failed.current = false := hvalue
      simp only [mainTurns, hplace, hfailed, Bool.false_eq_true, if_false]
      omega
  | released published hplace hlt =>
      simp only [Fresh, hplace] at hfresh
      subst hfresh
      have hstanding := hinv.ring.standing
      rw [hplace] at hstanding
      have hcaughtUp := hinv.caughtUp hlive hgoes (by rw [hplace]; rfl) (by rw [hplace]; rfl)
      have hcurrent : s.stream.producer.published.current = toWord (published + 1) := by
        rw [← hstanding.2.1, ← hinv.ring.stream]
        rfl
      have hposition : s.stream.consumerPosition geometry 0 (s.stream.released 0).last
          = (s.stream.released 0).current := rfl
      rw [hposition, ← hcaughtUp, hcurrent, BitVec.lt_def] at hlt
      cases Nat.lt_irrefl _ hlt
  | releasedFailed published hplace hload =>
      obtain ⟨-, -, hvalue⟩ := Location.load_eq_some_iff.mp hload
      simp only [Fresh, hplace] at hfresh
      subst hfresh
      have hfailed : s.failed.current = false := hvalue
      simp only [mainTurns, hplace, hfailed, Bool.false_eq_true, if_false]
      omega

/-- The consumer looks for events from the position it has released on. -/
theorem Ring.first_eq (h : s.Ring settings u) {first : SequenceType} {maxCount : ℕ}
    (hpc : (s.stream.consumer 0).pc = .loadPublished first maxCount) :
  first = (s.stream.released 0).current
  := by
  have hat := (h.inv.consumer 0 zero_lt_consumerCount).atPc
  rw [← h.stream] at hpc ⊢
  cases hpc' : (u.consumer 0).pc with
  | loadPublished first' maxCount' =>
      rw [hpc'] at hat
      have hfirst : Disruptor.ConsumerPc.loadPublished (toWord first') maxCount'
          = .loadPublished first maxCount := by
        rw [← hpc]
        exact congrArg (Disruptor.ConsumerPc.map toWord) hpc'.symm
      rw [← (Disruptor.ConsumerPc.loadPublished.inj hfirst).1, hat.1]
      rfl
  | _ =>
      have hmap := congrArg (Disruptor.ConsumerPc.map toWord) hpc'
      cases hmap.symm.trans hpc

/-- A poll of the consumer thread which reads what there is comes closer to the end of the wait,
if there is an event or the main thread has failed. -/
theorem ConsumerPoll.turns_lt {place : ℕ} {now : Int64} (h : ConsumerPoll s place s')
    (hinv : s.Inv settings u) (hgoes : s.consumerGoes = true)
    (hfresh : s.Fresh (.consumer place now)) :
  s'.consumerTurns < s.consumerTurns
  := by
  have hpolls := h.consumerPolls
  cases h with
  | call c' first hplace =>
      simp only [consumerTurns, hplace]
      split
      · omega
      · omega
  | empty c' first available hplace hpc hload hzero =>
      obtain ⟨-, -, hvalue⟩ := Location.load_eq_some_iff.mp hload
      simp only [Fresh, hplace, hpc] at hfresh
      subst hfresh
      have hsame : available = first := by
        have hlt := available.isLt
        have hlt' := first.isLt
        apply BitVec.eq_of_toNat_eq
        simp only [Geometry.wrapping, BitVec.toNat_sub] at hzero
        omega
      have hcurrent : s.stream.producer.published.current = (s.stream.released 0).current := by
        rw [Location.current, hvalue, hsame, hinv.ring.first_eq hpc]
      have hfailed : s.failed.current = true := by
        simpa [consumerGoes, hplace, hpolls, hcurrent] using hgoes
      simp only [consumerTurns, hplace, hfailed, if_true]
      omega
  | failed hplace hload =>
      obtain ⟨-, -, hvalue⟩ := Location.load_eq_some_iff.mp hload
      simp only [Fresh, hplace] at hfresh
      subst hfresh
      have hfailed : s.failed.current = false := hvalue
      simp only [consumerTurns, hplace, hfailed, Bool.false_eq_true, if_false]
      omega

/-- A thread that waits and reads what there is comes closer to the end of its wait, if it is the
one which helps. -/
theorem Waits.helps {a : Action} (h : s.Waits a s') (hinv : s.Inv settings u)
    (hlive : s.Live settings) (hfresh : s.Fresh a) :
  TransitionSystem.Helps Action.thread (measure settings) helpful s a s'
  := by
  obtain ⟨hrank, -⟩ := h.rank_eq settings
  cases h with
  | main place now s' hpoll =>
      obtain ⟨hhelpful, hturns⟩ := hpoll.helpful_eq
      cases hthread : s.helpful with
      | consumer =>
          right
          refine ⟨?_, hhelpful, ?_⟩
          · simp only [measure, hrank, turns, hhelpful, hthread, hturns]
          · rw [hthread]
            simp [Action.thread]
      | main =>
          left
          have hgoes : s.consumerGoes = false := by
            rw [helpful] at hthread
            split at hthread
            case isTrue => cases hthread
            case isFalse hgoes => apply Bool.eq_false_of_not_eq_true hgoes
          have hlt := hpoll.turns_lt hinv hlive hgoes hfresh
          simp only [measure, hrank, turns, hhelpful, hthread]
          omega
  | consumer place now s' hpoll =>
      obtain ⟨hhelpful, hturns⟩ := hpoll.helpful_eq
      cases hthread : s.helpful with
      | main =>
          right
          refine ⟨?_, hhelpful, ?_⟩
          · simp only [measure, hrank, turns, hhelpful, hthread, hturns]
          · rw [hthread]
            simp [Action.thread]
      | consumer =>
          left
          have hgoes : s.consumerGoes = true := by
            rw [helpful] at hthread
            split at hthread
            case isTrue hgoes => apply hgoes
            case isFalse => cases hthread
          have hlt := hpoll.turns_lt hinv hgoes hfresh
          simp only [measure, hrank, turns, hhelpful, hthread]
          omega

/-! ### The thread which helps has a step -/

/-- The ring as the class has it is reachable. -/
theorem Ring.reachable_words (h : s.Ring settings u) :
  (Disruptor.machine Event geometry.wrapping geometry 0).Reachable s.stream
  := by
  apply Disruptor.State.reachable_wrapping_iff.mpr
  exact ⟨u, h.reachable, h.stream⟩

/-- A consumer thread that has not ended has a step. -/
theorem Live.able_consumer (h : s.Live settings) (hring : s.Ring settings u)
    (hnot : s.consumerPlace ≠ .finished) :
  ∃ place s', s.stepConsumer settings place 0 = some s'
  := by
  have hseat := h.seat
  simp only [State.stepConsumer]
  cases hplace : s.consumerPlace with
  | makeConsumer =>
      rw [hplace] at hseat
      use 0
      simp only [Disruptor.State.step, Disruptor.Consumer.step, hseat.1, hseat.2,
        if_pos zero_lt_consumerCount, Option.map_some, Option.some.injEq, exists_eq']
  | pin | ready | catching =>
      use 0
      simp only [Option.some.injEq, exists_eq']
  | consume =>
      rw [hplace] at hseat
      obtain ⟨hidle, hhandle, -⟩ := hseat
      obtain ⟨handle, hhandle⟩ := Option.isSome_iff_exists.mp hhandle
      use 0
      simp only [Disruptor.State.step, Disruptor.Consumer.step, hidle, hhandle, Nat.one_ne_zero,
        if_false]
      split
      all_goals simp only [Option.map_some, Option.some.injEq, exists_eq']
  | consuming =>
      rw [hplace] at hseat
      have hpc : (s.stream.consumer 0).pc ≠ .idle := by
        intro hidle
        have hsingle := hseat.1
        rw [hidle] at hsingle
        cases hsingle
      obtain ⟨stream, hstream⟩ :=
        Disruptor.State.exists_resumeConsumer_wrapping hring.reachable_words hpc
      use s.stream.producer.published.last
      rw [Disruptor.State.resumeConsumer] at hstream
      simp only [hstream, Option.map_some, Option.some.injEq, exists_eq']
  | checkFailed =>
      use s.failed.last
      simp only [Location.load_last h.consumerFailedView_le, Option.map_some, Option.some.injEq,
        exists_eq']
  | finished => cases hnot hplace

/-- A publication has a next step where its loads read the current value. -/
theorem Ring.exists_resume (h : s.Ring settings u) {published : ℕ}
    (hpublishing : u.producer.Publishing 1 published) :
  ∃ stream, s.stream.step geometry.wrapping geometry
    (.producer (.resume (s.stream.released 0).last)) = some stream
  := by
  obtain ⟨u', hu'⟩ := h.inv.exists_callStep hpublishing.pc_ne
  have hblocking := h.inv.producer.cache.blocking
  have hcount : geometry.consumerCount = 1 := rfl
  have hsame : u.step geometry.unbounded geometry (.producer (.resume (u.released 0).last))
      = u.step geometry.unbounded geometry (.producer (.resume u.currentPlace)) := by
    simp only [Disruptor.State.step, Disruptor.Producer.step, Disruptor.Producer.resume,
      Disruptor.State.currentPlace]
    cases hpc : u.producer.pc with
    | loadBlocker count writer =>
        have hzero : u.producer.state.blockingConsumer = 0 := by omega
        simp only [hzero]
    | scan count writer index greatestLag greatestLagIndex =>
        by_cases hindex : index < geometry.consumerCount
        · obtain rfl : index = 0 := by omega
          rfl
        · simp only [hindex, if_false]
    | _ => rfl
  rw [Disruptor.State.callStep, ← hsame] at hu'
  use u'.map toWord
  have hmap := h.inv.map_step (a := .producer (.resume (u.released 0).last))
  rw [hu'] at hmap
  rw [← h.stream]
  apply hmap

/-- A consumer thread that waits for an event has one left to handle. -/
theorem Live.length_lt (h : s.Live settings) (hpolls : s.consumerPolls = true) :
  (s.stream.consumer 0).handled.length < settings.total.toNat
  := by
  have hseat := h.seat
  cases hplace : s.consumerPlace with
  | consume | checkFailed =>
      rw [hplace] at hseat
      apply hseat.2.2
  | consuming =>
      rw [hplace] at hseat
      cases hpc : (s.stream.consumer 0).pc with
      | loadPublished first maxCount =>
          obtain ⟨-, -, hexpecting⟩ := hseat
          rw [hpc] at hexpecting
          apply hexpecting trivial
      | _ =>
          rw [consumerPolls, hplace, hpc] at hpolls
          cases hpolls
  | makeConsumer | pin | ready | catching | finished =>
      rw [consumerPolls, hplace] at hpolls
      cases hpolls

/-- Where the consumer thread does not go on, a main thread that has not ended has a step. -/
theorem Inv.able_main (h : s.Inv settings u) (hlive : s.Live settings)
    (hgoes : s.consumerGoes = false) (hnot : ∀ outcome, s.producerPlace ≠ .finished outcome) :
  ∃ place s', s.stepProducer settings place 0 = some s'
  := by
  have hstanding := h.ring.standing
  simp only [State.stepProducer]
  cases hplace : s.producerPlace with
  | waitReady =>
      use s.ready.last
      simp only [Location.load_last hlive.readyView_le, Option.map_some, Option.some.injEq,
        exists_eq']
  | checkReady | checkPublish | checkReleased =>
      use s.failed.last
      simp only [Location.load_last hlive.failedView_le, Option.map_some, Option.some.injEq,
        exists_eq']
  | pin | catching =>
      use 0
      simp only [Option.some.injEq, exists_eq']
  | publish published =>
      rw [hplace] at hstanding
      obtain ⟨hidle, -⟩ := hstanding
      have hpc : s.stream.producer.pc = .idle := by
        rw [← h.ring.stream]
        exact congrArg (Disruptor.ProducerPc.map toWord) hidle
      obtain ⟨handle, hhandle⟩ := Option.isSome_iff_exists.mp hlive.session
      use 0
      simp only [Disruptor.State.step, Disruptor.Producer.step, hpc, hhandle, Option.map_some,
        Option.some.injEq, exists_eq']
  | publishing published =>
      rw [hplace] at hstanding
      obtain ⟨stream, hstream⟩ := h.ring.exists_resume hstanding.1
      have hview : s.releasedView ≤ (s.stream.released 0).last := by
        have hle := h.ring.view_le
        rw [← h.ring.stream]
        apply hle
      use (s.stream.released 0).last
      simp only [if_pos hview, hstream, Option.map_some, Option.some.injEq, exists_eq']
  | waitReleased published =>
      have hview : s.releasedView ≤ (s.stream.released 0).last
          ∧ s.stream.producer.views 0 ≤ (s.stream.released 0).last := by
        have hle := h.ring.view_le
        have hviews := h.ring.inv.producer.cache.views_le 0 zero_lt_consumerCount
        rw [← h.ring.stream]
        exact ⟨hle, hviews⟩
      use (s.stream.released 0).last
      simp only [Location.load_last (Nat.max_le.mpr hview), Option.map_some, Option.some.injEq,
        exists_eq']
  | joiningToThrow error =>
      have hfinished : s.consumerPlace = .finished := by
        rcases not_goes_cases hgoes with hfinished | ⟨-, hfailed, -⟩
        · apply hfinished
        · rw [hlive.gaveUp error hplace] at hfailed
          cases hfailed
      use 0
      simp only [hfinished, Option.some.injEq, exists_eq']
  | joining =>
      have hfinished : s.consumerPlace = .finished := by
        rcases not_goes_cases hgoes with hfinished | ⟨hpolls, -⟩
        · apply hfinished
        · rw [hplace] at hstanding
          obtain ⟨-, -, hseen⟩ := hstanding
          have hgrowing := h.ring.inv.consumers.growing 0 zero_lt_consumerCount
          have hle := hgrowing.le_current h.ring.view_le
          have hhandled := h.ring.handled_eq.1
          have hlt := hlive.length_lt hpolls
          omega
      use 0
      simp only [hfinished, Option.some.injEq, exists_eq']
  | finished outcome => cases hnot outcome hplace

/-- The thread which helps has a step, until the main thread has ended. -/
theorem Sound.able (h : s.Sound settings) (hnot : ∀ outcome, s.producerPlace ≠ .finished outcome) :
  (runLatency settings).Able Action.thread s.helpful s
  := by
  obtain ⟨hlive, u, hinv⟩ := h
  cases hgoes : s.consumerGoes with
  | true =>
      have hplace : s.consumerPlace ≠ .finished := by
        intro hplace
        rw [consumerGoes, hplace] at hgoes
        cases hgoes
      obtain ⟨place, s', hstep⟩ := hlive.able_consumer hinv.ring hplace
      rw [helpful, if_pos hgoes]
      use .consumer place 0, s', rfl, hstep
  | false =>
      obtain ⟨place, s', hstep⟩ := hinv.able_main hlive hgoes hnot
      rw [helpful, hgoes]
      use .producer place 0, s', rfl, hstep

/-- A step decreases the measure, or the thread which helps waits for its turn. -/
theorem Sound.helps (h : s.Sound settings) {a : Action} (hstep : s.step settings a = some s')
    (hfresh : s.Fresh a) :
  TransitionSystem.Helps Action.thread (measure settings) helpful s a s'
  := by
  obtain ⟨hlive, u, hinv⟩ := h
  rcases (hlive.step hinv hstep).2 with hlt | hwaits
  · left
    have hle := s'.turns_le
    simp only [measure]
    omega
  · apply hwaits.helps hinv hlive hfresh

/-- No thread steps once the main thread has ended. -/
theorem Sound.ended (h : s.Sound settings) {outcome : Option (Except Failure Measurement)}
    (hplace : s.producerPlace = .finished outcome) (a : Action) :
  s.step settings a = none
  := by
  obtain ⟨-, u, hinv⟩ := h
  have hconsumer := (hinv.control.outcome outcome hplace).1
  cases a with
  | producer place now => simp only [State.step, State.stepProducer, hplace]
  | producerFails failure => simp only [State.step, failProducer, hplace]
  | consumer place now => simp only [State.step, State.stepConsumer, hconsumer]
  | consumerFails failure => simp only [State.step, failConsumer, hconsumer]

theorem rank_init (settings : Config) :
  (State.init settings).rank settings = 12 * settings.total.toNat + 9
  := by
  simp only [rank, State.init, producerRank, consumerRank]
  omega

end State

/-- A run comes to an end. The steps of a run by which no thread waits for the other one are
bounded by the number of events. A run can go on until the main thread has ended, so the threads
never wait for each other. And a run does not go on forever if both threads are treated fairly
and every store is seen after a while. -/
theorem run_latency_ends (settings : Config) :
  (∀ actions s, (runLatency settings).run actions (State.init settings) = some s →
      (runLatency settings).work State.Polls actions (State.init settings)
        ≤ 12 * settings.total.toNat + 9)
    ∧ (∀ s, (runLatency settings).Reachable s →
        (∀ outcome, s.producerPlace ≠ .finished outcome) →
        ∃ a s', (runLatency settings).step a s = some s')
    ∧ ∀ (states : ℕ → State) (actions : ℕ → Action), states 0 = State.init settings →
        (∀ n, (runLatency settings).step (actions n) (states n) = some (states (n + 1))) →
        (∃ first, ∀ n, first ≤ n → (states n).Fresh (actions n)) →
        ¬∀ thread, (runLatency settings).Fair Action.thread states actions thread
  := by
  refine ⟨?_, ?_, ?_⟩
  · intro actions s hrun
    have hinit : (State.init settings).Sound settings :=
      State.sound_of_reachable (TransitionSystem.Reachable.initial _)
    have hwork := (State.pays settings).work_le hinit hrun
    rw [State.rank_init] at hwork
    omega
  · intro s hs hnot
    obtain ⟨a, s', -, hstep⟩ := (State.sound_of_reachable hs).able hnot
    use a, s', hstep
  · rintro states actions hinit hstep ⟨first, hfresh⟩
    have hreachable (n : ℕ) : (runLatency settings).Reachable (states n) := by
      induction n with
      | zero =>
          rw [hinit]
          apply TransitionSystem.Reachable.initial
      | succ n ih => apply ih.step (hstep n)
    have hsound (n : ℕ) := State.sound_of_reachable (hreachable n)
    have hnot (n : ℕ) (outcome : Option (Except Failure Measurement)) :
        (states n).producerPlace ≠ .finished outcome := by
      intro hplace
      have hnone := (hsound n).ended hplace (actions n)
      cases hnone.symm.trans (hstep n)
    apply TransitionSystem.not_fair
    · intro n hn
      apply (hsound n).helps (hstep n) (hfresh n hn)
    · intro n hn
      apply (hsound n).able (hnot n)

end PairedLatency
