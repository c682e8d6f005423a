import LowLatency.LatencyBenchmark.BlockingExchange
import LowLatency.Library.Fairness
import LowLatency.Library.Progress

/-!
# The blocking baseline comes to an end

No wake-up is lost: whenever the producer has not joined the consumer, one of the threads has a
step by which the run comes closer to its end, without being woken for no reason.
-/

namespace LatencyBenchmark

/-! ### The steps left -/

/-- The steps left to the producer, but for those of the call it is in. -/
def producerRank : ProducerPlace → ℕ
  | .starting => 8 * total + 2
  | .publish sequence => 8 * (total - 1 - sequence) + 9
  | .publishing sequence => 8 * (total - 1 - sequence) + 1
  | .joining => 1
  | .finished => 0

/-- The steps left to the consumer, but for those of the call it is in. -/
def consumerRank : ConsumerPlace → ℕ
  | .waitStart => 9 * total + 1
  | .consume consumed => 9 * (total - 1 - consumed) + 9
  | .consuming consumed | .sample consumed _ => 9 * (total - 1 - consumed) + 1
  | .finished => 0

theorem producerRank_next_zero : producerRank (State.nextPublish 0) ≤ 8 * total + 1 := by
  have hpos := total_pos
  rw [State.nextPublish, if_pos hpos, producerRank]
  omega

theorem producerRank_next (sequence : ℕ) :
  producerRank (State.nextPublish (sequence + 1)) ≤ producerRank (.publishing sequence)
  := by
  rw [State.nextPublish]
  split
  · simp only [producerRank]
    omega
  · simp only [producerRank]
    omega

theorem consumerRank_next_zero : consumerRank (State.nextConsume 0) ≤ 9 * total := by
  have hpos := total_pos
  rw [State.nextConsume, if_pos hpos, consumerRank]
  omega

theorem consumerRank_next (consumed : ℕ) (publishedAt : Int64) :
  consumerRank (State.nextConsume (consumed + 1)) < consumerRank (.sample consumed publishedAt)
  := by
  rw [State.nextConsume]
  split
  · simp only [consumerRank]
    omega
  · simp only [consumerRank]
    omega

namespace Action

/-- The steps by which a thread goes on by itself: not a load of `start`, and not that it is woken
for no reason. -/
def cost : Action → ℕ
  | .producer _ _ | .consumer _ _ => 1
  | .poll _ | .wake _ => 0

/-- The steps which it costs that a thread is woken for no reason: it takes the mutex and tests
its guard once more. -/
def allowance : Action → ℕ
  | .wake _ => 2
  | .producer _ _ | .consumer _ _ | .poll _ => 0

/-- It is not that a thread is woken for no reason. -/
def awaited : Action → Bool
  | .wake _ => false
  | .producer _ _ | .consumer _ _ | .poll _ => true

end Action

namespace State

variable {s s' : State}

/-- The steps left. -/
def rank (s : State) : ℕ :=
  s.slot.work + producerRank s.producerPlace + consumerRank s.consumerPlace

theorem work_init :
  State.init.slot.work = 0
  := rfl

theorem rank_init :
  State.init.rank = 17 * total + 3
  := by
  rw [rank, work_init]
  simp only [State.init, producerRank, consumerRank]
  omega

theorem rank_afterPublish_le (sequence : ℕ) (slot : Monitor Role Condition Slot (Option Int64))
    (hplace : s.producerPlace = .publishing sequence) :
  (s.afterPublish sequence slot).rank
    ≤ slot.work + producerRank s.producerPlace + consumerRank s.consumerPlace
  := by
  rw [afterPublish]
  split
  · have hnext := producerRank_next sequence
    rw [← hplace] at hnext
    simp only [rank]
    omega
  · apply Nat.le_refl

theorem rank_afterConsume_le (consumed : ℕ) (slot : Monitor Role Condition Slot (Option Int64))
    (hplace : s.consumerPlace = .consuming consumed) :
  (s.afterConsume consumed slot).rank
    ≤ slot.work + producerRank s.producerPlace + consumerRank s.consumerPlace
  := by
  rw [afterConsume]
  split
  · rw [hplace]
    apply Nat.le_refl
  · apply Nat.le_refl

theorem rank_stepProducer {now : Int64} {sleeper : Option Role}
    (hstep : s.stepProducer now sleeper = some s') :
  s'.rank < s.rank
  := by
  rw [State.stepProducer] at hstep
  split at hstep
  case h_1 hplace =>
    obtain rfl := Option.some.inj hstep
    have hnext := producerRank_next_zero
    have hstarting : producerRank .starting = 8 * total + 2 := rfl
    simp only [rank, hplace]
    omega
  case h_2 sequence hplace =>
    obtain ⟨slot, henter, rfl⟩ := Option.map_eq_some_iff.mp hstep
    have hwork := Monitor.work_enter henter
    simp only [rank, hplace, producerRank]
    omega
  case h_3 sequence hplace =>
    obtain ⟨slot, hresume, rfl⟩ := Option.map_eq_some_iff.mp hstep
    have hwork := Monitor.work_resume hresume
    have hle := rank_afterPublish_le sequence slot hplace
    rw [rank, rank] at *
    omega
  case h_4 hplace =>
    split at hstep
    case h_1 hconsumer =>
      obtain rfl := Option.some.inj hstep
      simp only [rank, hplace, producerRank]
      omega
    case h_2 => cases hstep
  case h_5 => cases hstep

theorem rank_stepConsumer {now : Int64} {sleeper : Option Role}
    (hstep : s.stepConsumer now sleeper = some s') :
  s'.rank < s.rank
  := by
  rw [State.stepConsumer] at hstep
  split at hstep
  case h_1 => cases hstep
  case h_2 consumed hplace =>
    obtain ⟨slot, henter, rfl⟩ := Option.map_eq_some_iff.mp hstep
    have hwork := Monitor.work_enter henter
    simp only [rank, hplace, consumerRank]
    omega
  case h_3 consumed hplace =>
    obtain ⟨slot, hresume, rfl⟩ := Option.map_eq_some_iff.mp hstep
    have hwork := Monitor.work_resume hresume
    have hle := rank_afterConsume_le consumed slot hplace
    rw [rank, rank] at *
    omega
  case h_4 consumed publishedAt hplace =>
    obtain rfl := Option.some.inj hstep
    have hnext := consumerRank_next consumed publishedAt
    simp only [rank, hplace]
    omega
  case h_5 => cases hstep

/-- A load of `start` which reads the store brings the consumer into its loop, any other one changes
nothing but the view. -/
theorem rank_poll {place : ℕ} (hstep : s.poll place = some s') :
  s'.rank < s.rank ∨ s.start.value place = false ∧ s' = { s with startView := place }
  := by
  rw [State.poll] at hstep
  split at hstep
  case h_1 hplace =>
    obtain ⟨start, hload, rfl⟩ := Option.map_eq_some_iff.mp hstep
    obtain ⟨-, -, rfl⟩ := Location.load_eq_some_iff.mp hload
    split
    case isTrue =>
      left
      have hnext := consumerRank_next_zero
      have hwaitStart : consumerRank .waitStart = 9 * total + 1 := rfl
      simp only [rank, hplace]
      omega
    case isFalse hfalse =>
      right
      use Bool.eq_false_of_not_eq_true hfalse
      rw [← hplace]
  case h_2 => cases hstep

/-- Every step is paid for. -/
theorem rank_step {a : Action} (hstep : s.step a = some s') :
  s'.rank + a.cost ≤ s.rank + a.allowance
  := by
  cases a with
  | producer now sleeper =>
      have hlt := rank_stepProducer hstep
      rw [Action.cost, Action.allowance]
      omega
  | consumer now sleeper =>
      have hlt := rank_stepConsumer hstep
      rw [Action.cost, Action.allowance]
      omega
  | poll place =>
      rw [Action.cost, Action.allowance]
      rcases rank_poll hstep with hlt | ⟨-, rfl⟩
      · omega
      · apply Nat.le_refl
  | wake role =>
      obtain ⟨slot, hwake, rfl⟩ := Option.map_eq_some_iff.mp hstep
      have hwork := Monitor.work_wake hwake
      simp only [rank, Action.cost, Action.allowance]
      omega

/-! ### No thread waits forever -/

/-- A poll reads the latest value of `start`. -/
def Fresh (s : State) : Action → Prop
  | .poll place => place = s.start.last
  | .producer _ _ | .consumer _ _ | .wake _ => True

/-- A thread outside the slot is not asleep. -/
theorem resume_eq_none_of_idle {role : Role} {result : Option (Option Int64)}
    (hidle : (s.slot.phase role).stage = .idle result) (sleeper : Option Role) :
  s.slot.resume role sleeper = none
  := by
  rw [Monitor.resume, Phase.stage_eq_idle.mp hidle]

theorem exists_enter {role : Role} {result : Option (Option Int64)}
    (hidle : (s.slot.phase role).stage = .idle result)
    (command : Command Condition Slot (Option Int64)) :
  ∃ slot, s.slot.enter role command = some slot
  := by
  rw [Monitor.enter, Phase.stage_eq_idle.mp hidle]
  use s.slot.move role (.locking command)

/-- The producer sleeps only while the slot is full. -/
theorem Inv.full_of_asleep (h : s.Inv) {command : Command Condition Slot (Option Int64)}
    (hphase : s.slot.phase .producer = .asleep command)
    (hguard : command.guard s.slot.data = false) :
  s.slot.data.full = true
  := by
  obtain ⟨publishedAt, rfl⟩ := h.slot.uses .producer command (by rw [hphase]; rfl)
  simpa [LatencyBenchmark.publish] using hguard

/-- The consumer sleeps only while the slot is empty. -/
theorem Inv.empty_of_asleep (h : s.Inv) {command : Command Condition Slot (Option Int64)}
    (hphase : s.slot.phase .consumer = .asleep command)
    (hguard : command.guard s.slot.data = false) :
  s.slot.data.full = false
  := by
  have huses := h.slot.uses .consumer command (by rw [hphase]; rfl)
  obtain rfl : command = LatencyBenchmark.consume := huses
  apply hguard

/-- Where one of the threads is inside the slot and the other one is, too, or has ended its loop,
one of them has a step: no wake-up is lost. -/
theorem Inv.exists_resume (h : s.Inv)
    (hproducer : (∃ sequence, s.producerPlace = .publishing sequence) ∨ s.producerPlace = .joining)
    (hconsumer : (∃ consumed, s.consumerPlace = .consuming consumed)
      ∨ s.consumerPlace = .finished)
    (hnot : ¬(s.producerPlace = .joining ∧ s.consumerPlace = .finished)) :
  ∃ role sleeper slot, s.slot.resume role sleeper = some slot
  := by
  by_contra hnone
  have hstuck (role : Role) (sleeper : Option Role) : s.slot.resume role sleeper = none := by
    apply Option.eq_none_iff_forall_not_mem.mpr
    intro slot hslot
    apply hnone ⟨role, sleeper, slot, hslot⟩
  rcases hproducer with ⟨sequence, hproducer⟩ | hproducer
  · obtain ⟨hstage, hpublished, hlt⟩ : ProducerAt _ _ (.publishing sequence) :=
      hproducer ▸ h.producer
    rcases h.slot.stuck hstuck .producer with ⟨result, hphase⟩ | ⟨command, hphase, hguard⟩
    · cases hstage result (Phase.stage_eq_idle.mpr hphase)
    · have hfull := h.full_of_asleep hphase hguard
      rcases hconsumer with ⟨consumed, hconsumer⟩ | hconsumer
      · obtain ⟨hstage', -⟩ : ConsumerAt _ _ _ (.consuming consumed) := hconsumer ▸ h.consumer
        rcases h.slot.stuck hstuck .consumer with ⟨result, hphase'⟩ | ⟨command', hphase', hguard'⟩
        · cases hstage' result (Phase.stage_eq_idle.mpr hphase')
        · have hempty := h.empty_of_asleep hphase' hguard'
          rw [hfull] at hempty
          cases hempty
      · obtain ⟨⟨result, hstage'⟩, htaken, -⟩ : ConsumerAt _ _ _ .finished :=
          hconsumer ▸ h.consumer
        obtain ⟨hcount, -⟩ := h.exchange.full hfull
        rw [hphase, hstage', Phase.stage, put, got] at hcount
        omega
  · obtain ⟨⟨result, hstage⟩, hpublished⟩ : ProducerAt _ _ .joining := hproducer ▸ h.producer
    rcases hconsumer with ⟨consumed, hconsumer⟩ | hconsumer
    · obtain ⟨hstage', htaken, -, hlt⟩ : ConsumerAt _ _ _ (.consuming consumed) :=
        hconsumer ▸ h.consumer
      rcases h.slot.stuck hstuck .consumer with ⟨result', hphase⟩ | ⟨command, hphase, hguard⟩
      · cases hstage' result' (Phase.stage_eq_idle.mpr hphase)
      · have hcount := h.exchange.empty (h.empty_of_asleep hphase hguard)
        rw [hphase, hstage, Phase.stage, put, got] at hcount
        omega
    · apply hnot ⟨hproducer, hconsumer⟩

/-- A thread has a step that comes closer to the end. -/
def Goes (s : State) : Prop :=
  ∃ a s', a.awaited = true ∧ s.Fresh a ∧ s.step a = some s' ∧ s'.rank < s.rank

theorem goes_of_stepProducer (now : Int64) (sleeper : Option Role)
    (hstep : s.stepProducer now sleeper = some s') :
  s.Goes
  := ⟨.producer now sleeper, s', rfl, trivial, hstep, rank_stepProducer hstep⟩

theorem goes_of_stepConsumer (now : Int64) (sleeper : Option Role)
    (hstep : s.stepConsumer now sleeper = some s') :
  s.Goes
  := ⟨.consumer now sleeper, s', rfl, trivial, hstep, rank_stepConsumer hstep⟩

/-- The producer goes on by itself before and between its calls of `publish`. -/
theorem Inv.producer_goes (h : s.Inv)
    (hplace : s.producerPlace = .starting ∨ ∃ sequence, s.producerPlace = .publish sequence) :
  s.Goes
  := by
  rcases hplace with hplace | ⟨sequence, hplace⟩
  · apply goes_of_stepProducer 0 none
    rw [State.stepProducer, hplace]
  · obtain ⟨⟨result, hidle⟩, -⟩ : ProducerAt _ _ (.publish sequence) := hplace ▸ h.producer
    obtain ⟨slot, henter⟩ := exists_enter hidle (LatencyBenchmark.publish 0)
    apply goes_of_stepProducer 0 none
    rw [State.stepProducer, hplace]
    dsimp only
    rw [henter]
    rfl

/-- The consumer goes on by itself before its loop, once the producer has begun. -/
theorem Inv.poll_goes (h : s.Inv) (hplace : s.consumerPlace = .waitStart)
    (hbegun : s.producerPlace ≠ .starting) :
  s.Goes
  := by
  have hstart : s.start.current = true := by
    apply Bool.eq_true_of_not_eq_false
    intro hfalse
    apply hbegun (h.started hfalse)
  obtain ⟨s', hpoll⟩ : ∃ s', s.poll s.start.last = some s' := by
    rw [State.poll, hplace, Location.load_last h.startView_le]
    exact ⟨_, rfl⟩
  use .poll s.start.last, s', rfl, rfl, hpoll
  rcases rank_poll hpoll with hlt | ⟨hfalse, -⟩
  · apply hlt
  · rw [← Location.current, hstart] at hfalse
    cases hfalse

/-- The consumer goes on by itself between its calls of `consume`. -/
theorem Inv.consumer_goes (h : s.Inv)
    (hplace : (∃ consumed, s.consumerPlace = .consume consumed)
      ∨ ∃ consumed publishedAt, s.consumerPlace = .sample consumed publishedAt) :
  s.Goes
  := by
  rcases hplace with ⟨consumed, hplace⟩ | ⟨consumed, publishedAt, hplace⟩
  · obtain ⟨⟨result, hidle⟩, -⟩ : ConsumerAt _ _ _ (.consume consumed) := hplace ▸ h.consumer
    obtain ⟨slot, henter⟩ := exists_enter hidle LatencyBenchmark.consume
    apply goes_of_stepConsumer 0 none
    rw [State.stepConsumer, hplace]
    dsimp only
    rw [henter]
    rfl
  · apply goes_of_stepConsumer 0 none
    rw [State.stepConsumer, hplace]

/-- A thread with a step in the slot goes on. -/
theorem Inv.resume_goes (h : s.Inv) {role : Role} {sleeper : Option Role}
    {slot : Monitor Role Condition Slot (Option Int64)}
    (hresume : s.slot.resume role sleeper = some slot) :
  s.Goes
  := by
  have hbusy (result : Option (Option Int64)) : (s.slot.phase role).stage ≠ .idle result := by
    intro hidle
    rw [resume_eq_none_of_idle hidle] at hresume
    cases hresume
  cases role with
  | producer =>
      have hproducer := h.producer
      cases hplace : s.producerPlace with
      | publishing sequence =>
          apply goes_of_stepProducer 0 sleeper
          rw [State.stepProducer, hplace]
          dsimp only
          rw [hresume]
          rfl
      | starting | publish _ | joining | finished =>
          rw [hplace] at hproducer
          obtain ⟨result, hidle⟩ := hproducer.1
          cases hbusy result hidle
  | consumer =>
      have hconsumer := h.consumer
      cases hplace : s.consumerPlace with
      | consuming consumed =>
          apply goes_of_stepConsumer 0 sleeper
          rw [State.stepConsumer, hplace]
          dsimp only
          rw [hresume]
          rfl
      | waitStart | consume _ | sample _ _ | finished =>
          rw [hplace] at hconsumer
          obtain ⟨result, hidle⟩ := hconsumer.1
          cases hbusy result hidle

/-- Until the producer has joined the consumer, a thread goes on. -/
theorem Inv.goes (h : s.Inv) (hnot : s.producerPlace ≠ .finished) :
  s.Goes
  := by
  have hslot (hproducer : (∃ sequence, s.producerPlace = .publishing sequence)
      ∨ s.producerPlace = .joining) : s.Goes := by
    cases hplace : s.consumerPlace with
    | waitStart =>
        apply h.poll_goes hplace
        rcases hproducer with ⟨sequence, hproducer⟩ | hproducer
        · simp [hproducer]
        · simp [hproducer]
    | consume consumed =>
        apply h.consumer_goes
        left
        use consumed
    | sample consumed publishedAt =>
        apply h.consumer_goes
        right
        use consumed, publishedAt
    | consuming consumed =>
        obtain ⟨role, sleeper, slot, hresume⟩ := h.exists_resume hproducer
          (.inl ⟨consumed, hplace⟩) (by simp [hplace])
        apply h.resume_goes hresume
    | finished =>
        rcases hproducer with ⟨sequence, hproducer⟩ | hproducer
        · obtain ⟨role, sleeper, slot, hresume⟩ := h.exists_resume (.inl ⟨sequence, hproducer⟩)
            (.inr hplace) (by simp [hproducer])
          apply h.resume_goes hresume
        · apply goes_of_stepProducer 0 none
          rw [State.stepProducer, hproducer]
          dsimp only
          rw [hplace]
  cases hplace : s.producerPlace with
  | starting =>
      apply h.producer_goes
      left
      apply hplace
  | publish sequence =>
      apply h.producer_goes
      right
      use sequence
  | publishing sequence =>
      apply hslot
      left
      use sequence
  | joining =>
      apply hslot
      right
      apply hplace
  | finished => cases hnot hplace

theorem Inv.exists_step (h : s.Inv) (hnot : s.producerPlace ≠ .finished) :
  ∃ a s', a.awaited = true ∧ blockingLatency.step a s = some s' ∧ s'.Inv ∧ s'.rank < s.rank
  := by
  obtain ⟨a, s', hawaited, -, hstep, hlt⟩ := h.goes hnot
  use a, s', hawaited, hstep, h.step hstep

/-- When the producer has joined the consumer there are no more steps. -/
theorem Inv.ended (h : s.Inv) (hplace : s.producerPlace = .finished) (a : Action) :
  s.step a = none
  := by
  have hplace' := h.joined hplace
  obtain ⟨⟨result, hidle⟩, -⟩ : ProducerAt _ _ .finished := hplace ▸ h.producer
  obtain ⟨⟨result', hidle'⟩, -⟩ : ConsumerAt _ _ _ .finished := hplace' ▸ h.consumer
  cases a with
  | producer now sleeper =>
      change s.stepProducer now sleeper = none
      rw [State.stepProducer, hplace]
  | consumer now sleeper =>
      change s.stepConsumer now sleeper = none
      rw [State.stepConsumer, hplace']
  | poll place =>
      change s.poll place = none
      rw [State.poll, hplace']
  | wake role =>
      have hwake : s.slot.wake role = none := by
        rw [Monitor.wake]
        cases role with
        | producer => rw [Phase.stage_eq_idle.mp hidle]
        | consumer => rw [Phase.stage_eq_idle.mp hidle']
      change (s.slot.wake role).map _ = none
      rw [hwake]
      rfl

end State

/-! ### The end of every run -/

/-- The steps which are not that a thread is woken for no reason. -/
def unprompted : TransitionSystem State Action :=
  blockingLatency.restrict fun _ a => a.awaited

open Classical in
/-- The producer helps if it has a step, and else the consumer. -/
noncomputable def helpful (s : State) : Role :=
  if unprompted.Able Action.role .producer s then .producer else .consumer

theorem able_of_starting {s : State} (hplace : s.producerPlace = .starting) :
  unprompted.Able Action.role .producer s
  := by
  use .producer 0 none, { s with start := s.start.store true, producerPlace := State.nextPublish 0 }
  use rfl
  apply TransitionSystem.restrict_step.mpr
  use rfl
  change s.stepProducer 0 none = _
  rw [State.stepProducer, hplace]

theorem helpful_of_starting {s : State} (hplace : s.producerPlace = .starting) :
  helpful s = .producer
  := if_pos (able_of_starting hplace)

/-- The thread that helps has a step. -/
theorem able_helpful {s : State} (h : s.Inv) (hnot : s.producerPlace ≠ .finished) :
  unprompted.Able Action.role (helpful s) s
  := by
  rw [helpful]
  split
  case isTrue hable => apply hable
  case isFalse hother =>
    obtain ⟨a, s', hawaited, -, hstep, -⟩ := h.goes hnot
    have hable : unprompted.Able Action.role a.role s :=
      ⟨a, s', rfl, TransitionSystem.restrict_step.mpr ⟨hawaited, hstep⟩⟩
    cases hrole : a.role with
    | producer =>
        rw [hrole] at hable
        cases hother hable
    | consumer =>
        rw [hrole] at hable
        apply hable

/-- A step comes closer to the end, or it is a load of `start` before the producer has begun. -/
theorem helps {s s' : State} {a : Action} (h : s.Inv) (hstep : s.step a = some s')
    (hawaited : a.awaited = true) (hfresh : s.Fresh a) :
  TransitionSystem.Helps Action.role State.rank helpful s a s'
  := by
  cases a with
  | producer now sleeper =>
      left
      apply State.rank_stepProducer hstep
  | consumer now sleeper =>
      left
      apply State.rank_stepConsumer hstep
  | poll place =>
      rcases State.rank_poll hstep with hlt | ⟨hfalse, rfl⟩
      · left
        apply hlt
      · right
        obtain rfl : place = s.start.last := hfresh
        have hplace := h.started hfalse
        have hother : Action.role (.poll s.start.last) ≠ helpful s := by
          rw [helpful_of_starting hplace]
          simp [Action.role]
        refine ⟨rfl, ?_, hother⟩
        rw [helpful_of_starting hplace]
        apply helpful_of_starting
        apply hplace
  | wake role => cases hawaited

/-- The steps of a run are bounded, but for the loads of `start`: a thread that is woken for no
reason takes two more. From every state of a run it can go on until the producer has joined the
consumer, with no thread woken for no reason. And a run does not go on forever if both threads
are treated fairly, the store to `start` is seen after a while, and threads are not woken for no
reason again and again. -/
theorem blocking_latency_ends :
  (∀ actions s, blockingLatency.run actions State.init = some s →
      (actions.map Action.cost).sum ≤ 17 * total + 3 + (actions.map Action.allowance).sum)
    ∧ (∀ s, blockingLatency.Reachable s → ∃ actions s', (∀ a ∈ actions, a.awaited = true)
        ∧ blockingLatency.run actions s = some s' ∧ s'.producerPlace = .finished)
    ∧ ∀ (states : ℕ → State) (actions : ℕ → Action), states 0 = State.init →
        (∀ n, blockingLatency.step (actions n) (states n) = some (states (n + 1))) →
        (∃ first, ∀ n, first ≤ n →
          (actions n).awaited = true ∧ (states n).Fresh (actions n)) →
        ¬∀ role, unprompted.Fair Action.role states actions role
  := by
  refine ⟨?_, ?_, ?_⟩
  · intro actions s hrun
    have hle : (actions.map Action.cost).sum + s.rank
        ≤ State.init.rank + (actions.map Action.allowance).sum :=
      TransitionSystem.cost_le (fun a s s' hstep => State.rank_step hstep) hrun
    rw [State.rank_init] at hle
    omega
  · intro s hs
    obtain ⟨actions, s', hawaited, -, hrun, -, hplace⟩ :=
      TransitionSystem.exists_run_of_decreasing (M := blockingLatency) (I := State.Inv)
        (C := fun a => a.awaited = true) (fun s => s.producerPlace = .finished) State.rank
        (fun s h hnot => h.exists_step hnot) (reachable_inv hs)
    use actions, s', hawaited, hrun
  · rintro states actions hinit hstep ⟨first, hlater⟩
    have hreachable (n : ℕ) : blockingLatency.Reachable (states n) := by
      induction n with
      | zero =>
          rw [hinit]
          apply TransitionSystem.Reachable.initial
      | succ n ih => apply ih.step (hstep n)
    have hnot (n : ℕ) : (states n).producerPlace ≠ .finished := by
      intro hplace
      have hnone := (reachable_inv (hreachable n)).ended hplace (actions n)
      cases hnone.symm.trans (hstep n)
    apply TransitionSystem.not_fair (M := unprompted)
    · intro n hn
      obtain ⟨hawaited, hfresh⟩ := hlater n hn
      apply helps (reachable_inv (hreachable n)) (hstep n) hawaited hfresh
    · intro n _
      apply able_helpful (reachable_inv (hreachable n)) (hnot n)

end LatencyBenchmark
