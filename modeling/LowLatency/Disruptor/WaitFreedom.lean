import LowLatency.Disruptor.Refinement
import LowLatency.Library.Progress

/-!
# The calls of the disruptor are wait-free

A thread inside a call of the disruptor always has a next step, whatever the other threads do
and however old the values are that it loads, and it returns after a number of its own steps
which its arguments bound. There is no interleaving in which a thread waits for another one
inside a call.
-/

namespace Disruptor

variable {P Event : Type} {A : PositionArithmetic P} {g : Geometry}

/-! ### What the steps of a call cost -/

/-- The steps of a publication. -/
def Action.publishing : Action Event → ℕ
  | .producer (.resume _) => 1
  | _ => 0

/-- The steps allowed to the publications that begin. -/
def Action.allowedToPublish (g : Geometry) : Action Event → ℕ
  | .producer (.publish count _) => g.consumerCount + count + 4
  | .producer (.publishHandle count _) => g.consumerCount + count + 4
  | _ => 0

/-- The steps of a call of consumer `i`. -/
def Action.consuming (i : ℕ) : Action Event → ℕ
  | .consumer j (.resume _) => if j = i then 1 else 0
  | _ => 0

/-- The steps allowed to the calls of consumer `i` that begin. -/
def Action.allowedToConsume (i : ℕ) : Action Event → ℕ
  | .consumer j (.consume maxCount) => if j = i then 2 * maxCount + 5 else 0
  | .consumer j (.consumeHandle maxCount) => if j = i then 2 * maxCount + 5 else 0
  | _ => 0

namespace Producer

variable {released : ℕ → Location P} {p p' : Producer P Event}

/-- A publication that begins is within what it is allowed. -/
theorem remaining_begin (count : ℕ) (writer : Writer Event) :
  remaining g (p.tryPublishBatch g count writer).pc ≤ g.consumerCount + count + 4
  := by
  by_cases hbounds : 0 < count ∧ count ≤ g.capacity
  · apply remaining_tryPublishBatch hbounds.1 hbounds.2
  · rw [tryPublishBatch]
    split_ifs with hzero hcapacity
    · apply Nat.zero_le
    · apply Nat.zero_le
    all_goals omega

/-- A step of the producer is paid for. -/
theorem remaining_step {a : ProducerAction Event}
    (h : p.step A g released a = some p') :
  remaining g p'.pc + Action.publishing (.producer a)
    ≤ remaining g p.pc + Action.allowedToPublish g (.producer a)
  := by
  cases a with
  | resume place =>
      have hlt := remaining_resume h
      simp only [Action.publishing, Action.allowedToPublish]
      omega
  | publish count writer =>
      simp only [step] at h
      split at h
      case h_1 =>
        obtain rfl := Option.some.inj h
        have hle := remaining_begin (g := g) (p := p) count writer
        simp only [Action.publishing, Action.allowedToPublish]
        omega
      case h_2 => cases h
  | publishHandle count writer =>
      simp only [step] at h
      split at h
      case h_1 =>
        obtain rfl := Option.some.inj h
        have hle := remaining_begin (g := g) (p := p) count writer
        simp only [Action.publishing, Action.allowedToPublish]
        omega
      case h_2 => cases h
  | _ =>
      simp only [step] at h
      split at h
      case h_1 =>
        obtain rfl := Option.some.inj h
        apply Nat.le_refl
      case h_2 => cases h

end Producer

namespace Consumer

variable {events : ℕ → Event} {published : Location P} {c c' : Consumer P Event} {i : ℕ}

/-- A step of a consumer is paid for. -/
theorem remaining_step {a : ConsumerAction} (h : c.step A g events published i a = some c') :
  remaining c'.pc + Action.consuming i (.consumer i a : Action Event)
    ≤ remaining c.pc + Action.allowedToConsume i (.consumer i a : Action Event)
  := by
  cases a with
  | resume place =>
      have hlt := remaining_resume h
      simp only [Action.consuming, Action.allowedToConsume, if_true]
      omega
  | consume maxCount =>
      simp only [Action.consuming, Action.allowedToConsume, if_true]
      simp only [step] at h
      split at h
      case h_1 =>
        split_ifs at h
        · obtain rfl := Option.some.inj h
          simp only [finish, remaining]
          omega
        · obtain rfl := Option.some.inj h
          simp only [goto, remaining]
          omega
      case h_2 => cases h
  | consumeHandle maxCount =>
      simp only [Action.consuming, Action.allowedToConsume, if_true]
      simp only [step] at h
      split at h
      case h_1 =>
        split_ifs at h
        · obtain rfl := Option.some.inj h
          simp only [finish, remaining]
          omega
        · obtain rfl := Option.some.inj h
          simp only [goto, remaining]
          omega
        · obtain rfl := Option.some.inj h
          simp only [begin, goto, remaining]
          split_ifs
          · omega
          · omega
      case h_2 => cases h
  | makeConsumer =>
      simp only [step] at h
      split at h
      case h_1 =>
        split_ifs at h
        obtain rfl := Option.some.inj h
        apply Nat.le_refl
      case h_2 => cases h
  | _ =>
      simp only [step] at h
      split at h
      case h_1 =>
        obtain rfl := Option.some.inj h
        apply Nat.le_refl
      case h_2 => cases h

end Consumer

namespace State

variable {s s' : State P Event} {a : Action Event}

/-- A publication is paid for, whoever takes a step. -/
theorem publishing_le (h : s.step A g a = some s') :
  Producer.remaining g s'.producer.pc + a.publishing
    ≤ Producer.remaining g s.producer.pc + a.allowedToPublish g
  := by
  cases a with
  | producer a =>
      obtain ⟨p, hp, rfl⟩ := step_producer.mp h
      apply Producer.remaining_step hp
  | consumer i a =>
      obtain ⟨c, -, rfl⟩ := step_consumer.mp h
      apply Nat.le_refl

/-- A call of consumer `i` is paid for, whoever takes a step. -/
theorem consuming_le (i : ℕ) (h : s.step A g a = some s') :
  Consumer.remaining (s'.consumer i).pc + a.consuming i
    ≤ Consumer.remaining (s.consumer i).pc + a.allowedToConsume i
  := by
  cases a with
  | producer a =>
      obtain ⟨p, -, rfl⟩ := step_producer.mp h
      apply Nat.le_refl
  | consumer j a =>
      obtain ⟨c, hc, rfl⟩ := step_consumer.mp h
      by_cases hj : j = i
      · subst hj
        simp only [Function.update_self]
        apply Consumer.remaining_step hc
      · have hcost : (Action.consumer j a : Action Event).consuming i = 0 := by
          cases a with
          | resume => simp only [Action.consuming, if_neg hj]
          | _ => rfl
        simp only [Function.update_of_ne (Ne.symm hj), hcost]
        omega

/-- On words, a call under way has a next step. -/
theorem exists_resumeConsumer_wrapping [Inhabited Event] {initialPosition : SequenceType}
    {t : State SequenceType Event}
    (ht : (machine Event g.wrapping g initialPosition).Reachable t) {i : ℕ}
    (hpc : (t.consumer i).pc ≠ .idle) :
  ∃ t', t.resumeConsumer g.wrapping g i = some t'
  := by
  obtain ⟨s, hreachable, rfl⟩ := reachable_wrapping_iff.mp ht
  have hs := inv_of_reachable hreachable
  have hidle : (s.consumer i).pc ≠ .idle := by
    intro h
    apply hpc
    simp only [State.map, Consumer.pc_map, h, ConsumerPc.map]
  have hi : i < g.consumerCount := by
    by_contra hge
    apply hidle (hs.outside i (by omega)).1
  obtain ⟨s', hs'⟩ := hs.exists_resumeConsumer hi hidle
  use s'.map toWord
  have hmap := hs.map_step (a := .consumer i (.resume s.producer.published.last))
  rw [resumeConsumer] at hs'
  rw [hs'] at hmap
  apply hmap

end State

open State

/-- The calls of the disruptor are wait-free. In every run from a reachable state, the steps a
thread spends inside its calls are bounded by what its arguments allow, whatever the other
threads do; and at every state a thread inside a call has a next step. -/
theorem wait_free [Inhabited Event] {initialPosition : SequenceType}
    {actions : List (Action Event)} {t t' : State SequenceType Event}
    (ht : (machine Event g.wrapping g initialPosition).Reachable t)
    (hrun : (machine Event g.wrapping g initialPosition).run actions t = some t') :
  (actions.map Action.publishing).sum + Producer.remaining g t'.producer.pc
      ≤ Producer.remaining g t.producer.pc + (actions.map (Action.allowedToPublish g)).sum
    ∧ (t'.producer.pc ≠ .idle →
        ∃ place t'', t'.step g.wrapping g (.producer (.resume place)) = some t'')
    ∧ ∀ i, (actions.map (Action.consuming i)).sum + Consumer.remaining (t'.consumer i).pc
        ≤ Consumer.remaining (t.consumer i).pc + (actions.map (Action.allowedToConsume i)).sum
      ∧ ((t'.consumer i).pc ≠ .idle →
        ∃ place t'', t'.step g.wrapping g (.consumer i (.resume place)) = some t'')
  := by
  have ht' := ht.run hrun
  constructor
  · apply TransitionSystem.cost_le (fun a s s' hstep => publishing_le hstep) hrun
  constructor
  · intro hpc
    obtain ⟨t'', hstep, -⟩ := exists_callStep_wrapping ht' hpc
    use t'.currentPlace, t'', hstep
  · intro i
    constructor
    · have hpaid : ∀ a s s', (machine Event g.wrapping g initialPosition).step a s = some s' →
          Consumer.remaining (s'.consumer i).pc + a.consuming i
            ≤ Consumer.remaining (s.consumer i).pc + a.allowedToConsume i := by
        intro a s s' hstep
        apply consuming_le i hstep
      apply TransitionSystem.cost_le hpaid hrun
    · intro hpc
      obtain ⟨t'', hstep⟩ := exists_resumeConsumer_wrapping ht' hpc
      use t'.producer.published.last, t'', hstep

/-- A publication of two events beside a consumer, both inside their calls. -/
theorem wait_free_acrossWrap :
  ∃ t', (machine ℕ Geometry.pair.wrapping Geometry.pair (BitVec.allOnes 64)).run acrossWrap
      (init Geometry.pair (BitVec.allOnes 64)) = some t'
    ∧ (acrossWrap.map Action.publishing).sum = 3
    ∧ (acrossWrap.map (Action.consuming 1)).sum = 4
    ∧ (t'.consumer 1).pc ≠ .idle
    ∧ ∃ place t'', t'.step Geometry.pair.wrapping Geometry.pair (.consumer 1 (.resume place))
        = some t''
  := by
  obtain ⟨t', hrun, hpc⟩ : ∃ t', (machine ℕ Geometry.pair.wrapping Geometry.pair
      (BitVec.allOnes 64)).run acrossWrap (init Geometry.pair (BitVec.allOnes 64)) = some t'
      ∧ (t'.consumer 1).pc = .running (BitVec.allOnes 64) 2 1 := ⟨_, rfl, rfl⟩
  have hidle : (t'.consumer 1).pc ≠ .idle := by
    rw [hpc]
    intro h
    cases h
  use t', hrun, rfl, rfl, hidle
  apply ((wait_free (TransitionSystem.Reachable.initial _) hrun).2.2 1).2 hidle

end Disruptor
