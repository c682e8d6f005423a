import LowLatency.Disruptor.Producer
import LowLatency.Disruptor.Consumer

/-!
# The invariant of the machine

The invariant of the machine on unbounded positions is the invariant of the producer
together with the invariants of the consumers. Each of them provides what the others
rely on, so every step keeps it, and it holds at every reachable state.
-/

namespace Disruptor

namespace State

variable {Event : Type} {g : Geometry} {initial : ℕ} {s s' : State ℕ Event}

/-- The invariant of the machine, where positions start at `initial`. -/
structure Inv (g : Geometry) (initial : ℕ) (s : State ℕ Event) : Prop where
  producer : s.producer.Inv g initial s.released
  consumer : ∀ i < g.consumerCount,
    (s.consumer i).Inv g initial s.producer.published s.producer.written
  outside : ∀ i, g.consumerCount ≤ i → (s.consumer i).pc = .idle ∧ (s.consumer i).handle = none

/-- What the consumers provide to the producer. -/
theorem Inv.consumers (hs : s.Inv g initial) :
  Producer.Consumers g s.released s.producer.published
  := by
  constructor
  · intro i hi
    apply (hs.consumer i hi).growing
  · intro i hi
    apply le_trans (hs.consumer i hi).released_le
    apply hs.producer.log.growing.le_current (hs.consumer i hi).view_le

/-- At most `capacity` published positions are not released by a consumer. -/
theorem Inv.current_le_capacity (hs : s.Inv g initial) {i : ℕ} (hi : i < g.consumerCount) :
  s.producer.published.current ≤ g.capacity + (s.released i).current
  := by
  apply le_trans hs.producer.current_le_length
  apply hs.producer.length_le hs.consumers hi

/-- What the producer provides to a consumer. -/
theorem Inv.provides (hs : s.Inv g initial) {i : ℕ} (hi : i < g.consumerCount) :
  Consumer.Provides g initial s.producer.events s.producer.published s.producer.written
    (s.released i).current
  := by
  constructor
  · apply hs.producer.log.growing
  · intro k event hk hle
    apply hs.producer.slot_eq hs.consumers hi hk hle
  · apply hs.producer.current_le_length
  · apply hs.current_le_capacity hi

/-- A disruptor satisfies the invariant when it is constructed. -/
theorem inv_init [Inhabited Event] (g : Geometry) (initial : ℕ) :
  (init g initial : State ℕ Event).Inv g initial
  := by
  constructor
  · constructor
    · rfl
    · constructor
      · apply Location.growing_init
      · intro k _
        simp [init, Location.init]
      · apply Nat.zero_le
      · rfl
      · rfl
      · intro k event hk
        cases hk
    · constructor
      · intro i _
        apply Nat.zero_le
      · intro i _
        apply le_rfl
      · apply g.consumerCount_ne_zero
    · intro h hh
      cases hh
    · intro h hh
      cases hh
    · trivial
  · intro i _
    constructor
    · apply Location.growing_init
    · rfl
    · apply Nat.zero_le
    · apply le_rfl
    · intro h hh
      cases hh
    · intro h hh
      cases hh
    · intro h hh
      cases hh
    · trivial
    · use 0
      simp [init, Location.init, Location.current, Consumer.done]
  · intro i _
    constructor
    · rfl
    · rfl

/-- A step of the producer. -/
theorem step_producer {P : Type} {A : PositionArithmetic P} {t t' : State P Event}
    {a : ProducerAction Event} :
  t.step A g (.producer a) = some t'
    ↔ ∃ p, t.producer.step A g t.released a = some p ∧ { t with producer := p } = t'
  := Option.map_eq_some_iff

/-- A step of consumer `i`. -/
theorem step_consumer {P : Type} {A : PositionArithmetic P} {t t' : State P Event} {i : ℕ}
    {a : ConsumerAction} :
  t.step A g (.consumer i a) = some t'
    ↔ ∃ c, (t.consumer i).step A g t.producer.events t.producer.published i a = some c
        ∧ { t with consumer := Function.update t.consumer i c } = t'
  := Option.map_eq_some_iff

theorem reachable_of_step [Inhabited Event] {P : Type} {A : PositionArithmetic P} {position : P}
    {t t' : State P Event} {a : Action Event}
    (ht : (machine Event A g position).Reachable t) (h : t.step A g a = some t') :
  (machine Event A g position).Reachable t'
  := TransitionSystem.Reachable.step (a := a) ht h

/-- A step of a consumer leads to later states of the cursors of all consumers. -/
theorem extends_update {P : Type} {t : State P Event} {i : ℕ} {c : Consumer P Event}
    (h : (t.consumer i).released.Extends c.released) (j : ℕ) :
  (t.released j).Extends (Function.update t.consumer i c j).released
  := by
  by_cases hj : j = i
  · subst hj
    rw [Function.update_self]
    apply h
  · rw [Function.update_of_ne hj]
    apply Location.Extends.refl

/-- Every step keeps the invariant. -/
theorem Inv.step {a : Action Event} (hs : s.Inv g initial)
    (h : s.step g.unbounded g a = some s') :
  s'.Inv g initial
  := by
  cases a with
  | producer a =>
      obtain ⟨p, hp, rfl⟩ := step_producer.mp h
      have hgrows := Producer.grows_of_step hp
      constructor
      · apply hs.producer.step hs.consumers hp
      · intro i hi
        apply (hs.consumer i hi).of_grows hgrows.published hgrows.written
      · apply hs.outside
  | consumer i a =>
      obtain ⟨c, hc, rfl⟩ := step_consumer.mp h
      have hextends := Consumer.extends_of_step hc
      constructor
      · apply hs.producer.of_extends
        intro j _
        apply extends_update hextends
      · intro j hj
        by_cases hji : j = i
        · subst hji
          simp only [Function.update_self]
          apply (hs.consumer j hj).step (hs.provides hj) hc
        · simp only [Function.update_of_ne hji]
          apply hs.consumer j hj
      · intro j hj
        by_cases hji : j = i
        · subst hji
          simp only [Function.update_self]
          obtain ⟨hpc, hhandle⟩ := hs.outside j hj
          apply Consumer.idle_of_step hj hpc hhandle hc
        · simp only [Function.update_of_ne hji]
          apply hs.outside j hj

/-- The invariant holds at every reachable state. -/
theorem inv_of_reachable [Inhabited Event]
    (hs : (machine Event g.unbounded g initial).Reachable s) :
  s.Inv g initial
  := hs.invariant (inv_init g initial) fun _ _ _ hi h => hi.step h

end State

end Disruptor
