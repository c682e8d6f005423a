import Mathlib.Tactic.Common
import Mathlib.Data.Nat.Notation

/-!
# Transition systems

A transition system moves from state to state along actions. An action a state
refuses has no step, and along an action a state has at most one step, so a run is
determined by its list of actions.

* An invariant of the steps is an invariant of the runs.
* A map of states which commutes with the steps at the states of an invariant commutes
  with the runs.
-/

universe u v w

/-- A transition system: an initial state, and the state an action leads to. -/
structure TransitionSystem (State : Type u) (Action : Type v) where
  initial : State
  step : Action → State → Option State

namespace TransitionSystem

variable {State : Type u} {Action : Type v} (M : TransitionSystem State Action)

/-- The state a list of actions leads to. -/
def run : List Action → State → Option State
  | [], s => some s
  | a :: as, s => (M.step a s).bind (run as)

/-- A state is reachable when a list of actions leads to it from the initial state. -/
def Reachable (s : State) : Prop :=
  ∃ as, M.run as M.initial = some s

@[simp]
theorem run_nil (s : State) :
  M.run [] s = some s
  := rfl

/-- A run along `a :: as` is a step along `a` followed by a run along `as`. -/
theorem run_cons {a : Action} {as : List Action} {s t : State} :
  M.run (a :: as) s = some t ↔ ∃ s', M.step a s = some s' ∧ M.run as s' = some t
  := Option.bind_eq_some_iff

/-- A run along `as ++ bs` is a run along `as` followed by a run along `bs`. -/
theorem run_append {as bs : List Action} {s t : State} :
  M.run (as ++ bs) s = some t ↔ ∃ s', M.run as s = some s' ∧ M.run bs s' = some t
  := by
  induction as generalizing s with
  | nil =>
      simp only [List.nil_append, run_nil, Option.some.injEq]
      constructor
      · intro h
        use s
      · rintro ⟨_, rfl, h⟩
        apply h
  | cons a as ih =>
      rw [List.cons_append, run_cons]
      constructor
      · rintro ⟨s', hs, h⟩
        obtain ⟨t', hr, ht⟩ := ih.mp h
        use t', M.run_cons.mpr ⟨s', hs, hr⟩
      · rintro ⟨t', h, ht⟩
        obtain ⟨s', hs, hr⟩ := M.run_cons.mp h
        use s', hs
        apply ih.mpr ⟨t', hr, ht⟩

/-- The initial state is reachable. -/
theorem Reachable.initial :
  M.Reachable M.initial
  := ⟨[], rfl⟩

variable {M}

/-- What a run leads to from a reachable state is reachable. -/
theorem Reachable.run {as : List Action} {s t : State} (hs : M.Reachable s)
    (h : M.run as s = some t) :
  M.Reachable t
  := by
  obtain ⟨bs, hbs⟩ := hs
  use bs ++ as
  apply M.run_append.mpr ⟨s, hbs, h⟩

/-- What a step leads to from a reachable state is reachable. -/
theorem Reachable.step {a : Action} {s t : State} (hs : M.Reachable s)
    (h : M.step a s = some t) :
  M.Reachable t
  := hs.run (M.run_cons.mpr ⟨t, h, M.run_nil t⟩)

/-- What the steps preserve, the runs preserve. -/
theorem run_invariant {I : State → Prop}
    (hstep : ∀ a s t, I s → M.step a s = some t → I t)
    {as : List Action} {s t : State} (hs : I s) (h : M.run as s = some t) :
  I t
  := by
  induction as generalizing s with
  | nil =>
      obtain rfl := Option.some.inj h
      apply hs
  | cons a as ih =>
      obtain ⟨s', hs', hr⟩ := M.run_cons.mp h
      apply ih (hstep a s s' hs hs') hr

/-- What holds initially and the steps preserve holds at every reachable state. -/
theorem Reachable.invariant {I : State → Prop} (hinit : I M.initial)
    (hstep : ∀ a s t, I s → M.step a s = some t → I t) {s : State} (hs : M.Reachable s) :
  I s
  := by
  obtain ⟨as, h⟩ := hs
  apply run_invariant hstep hinit h

/-- If a step into `Q` is made from `R` only, a run into `Q` from outside it passes `R`. -/
theorem run_passes {I Q R : State → Prop} (hstep : ∀ a s t, I s → M.step a s = some t → I t)
    (hpass : ∀ a s t, I s → ¬Q s → M.step a s = some t → Q t → R s)
    {as : List Action} {s t : State} (hs : I s) (hout : ¬Q s) (h : M.run as s = some t)
    (ht : Q t) :
  ∃ bs cs u, as = bs ++ cs ∧ M.run bs s = some u ∧ R u
  := by
  induction as generalizing s with
  | nil =>
      obtain rfl := Option.some.inj h
      cases hout ht
  | cons a as ih =>
      obtain ⟨s', hs', hr⟩ := M.run_cons.mp h
      by_cases hq : Q s'
      · use [], a :: as, s, rfl, rfl
        apply hpass a s s' hs hout hs' hq
      · obtain ⟨bs, cs, u, rfl, hu, hru⟩ := ih (hstep a s s' hs hs') hq hr
        use a :: bs, cs, u, rfl
        use M.run_cons.mpr ⟨s', hs', hu⟩

/-- If `a` may be taken and decreases a measure until `Done`, taking it often enough leads to
`Done`. -/
theorem exists_run_replicate {I : State → Prop} {a : Action} (Done : State → Prop)
    (measure : State → ℕ)
    (hstep : ∀ s, I s → ¬Done s → ∃ t, M.step a s = some t ∧ I t ∧ measure t < measure s)
    {s : State} (hs : I s) :
  ∃ n ≤ measure s, ∃ t, M.run (List.replicate n a) s = some t ∧ I t ∧ Done t
  := by
  induction h : measure s using Nat.strongRecOn generalizing s with
  | ind m ih =>
      by_cases hdone : Done s
      · use 0, Nat.zero_le m, s, rfl, hs
      · obtain ⟨u, hu, hiu, hlt⟩ := hstep s hs hdone
        obtain ⟨n, hn, t, ht, hdt⟩ := ih (measure u) (by omega) hiu rfl
        use n + 1, by omega, t
        rw [List.replicate_succ, run_cons]
        use ⟨u, hu, ht⟩

/-! ### Restriction -/

/-- The system that takes only the steps which meet a condition on the state and the action. -/
def restrict (M : TransitionSystem State Action) (C : State → Action → Bool) :
    TransitionSystem State Action where
  initial := M.initial
  step a s := if C s a then M.step a s else none

theorem restrict_step {C : State → Action → Bool} {a : Action} {s t : State} :
  (M.restrict C).step a s = some t ↔ C s a = true ∧ M.step a s = some t
  := Option.ite_none_right_eq_some

/-! ### Records -/

section Recording

variable {Record : Type w} {record : Action → Record → Record}

/-- The system beside a record, which is kept of the actions taken. -/
def recording (M : TransitionSystem State Action) (initial : Record)
    (record : Action → Record → Record) : TransitionSystem (Record × State) Action where
  initial := (initial, M.initial)
  step a s := (M.step a s.2).map fun t => (record a s.1, t)

theorem recording_step {initial : Record} {a : Action} {s t : Record × State} :
  (M.recording initial record).step a s = some t ↔
    M.step a s.2 = some t.2 ∧ record a s.1 = t.1
  := by
  constructor
  · intro h
    obtain ⟨u, hu, rfl⟩ := Option.map_eq_some_iff.mp h
    use hu
  · rintro ⟨hstep, hrecord⟩
    apply Option.map_eq_some_iff.mpr
    use t.2, hstep
    rw [hrecord]

end Recording

/-! ### Running to completion -/

section Settle

variable {State' : Type w} {next : State → Option State} {next' : State' → Option State'}
  {I : State → Prop}

/-- The state after at most `n` steps along `next`, which stop where there is none. -/
def settle (next : State → Option State) : ℕ → State → State
  | 0, s => s
  | n + 1, s =>
      match next s with
      | none => s
      | some t => settle next n t

/-- If a measure decreases along `next` until `Done`, where there are no more steps, enough
steps lead to `Done`. -/
theorem settle_done (Done : State → Prop) (measure : State → ℕ)
    (hstep : ∀ s, I s → ¬Done s → ∃ t, next s = some t ∧ I t ∧ measure t < measure s)
    (hdone : ∀ s, Done s → next s = none) {n : ℕ} {s : State} (hs : I s)
    (hn : measure s ≤ n) :
  I (settle next n s) ∧ Done (settle next n s)
  := by
  induction n generalizing s with
  | zero =>
      use hs
      by_contra hnot
      obtain ⟨t, -, -, hlt⟩ := hstep s hs hnot
      omega
  | succ n ih =>
      by_cases hd : Done s
      · rw [settle, hdone s hd]
        use hs
      · obtain ⟨t, ht, hi, hlt⟩ := hstep s hs hd
        rw [settle, ht]
        apply ih hi (by omega)

/-- If `f` commutes with the steps from the states of an invariant, it commutes with running
to completion. -/
theorem settle_map {f : State → State'} (hstep : ∀ s t, I s → next s = some t → I t)
    (hmap : ∀ s, I s → next' (f s) = (next s).map f) {s : State} (hs : I s) (n : ℕ) :
  settle next' n (f s) = f (settle next n s)
  := by
  induction n generalizing s with
  | zero => rfl
  | succ n ih =>
      rw [settle, settle, hmap s hs]
      cases h : next s with
      | none => rfl
      | some t => apply ih (hstep s t hs h)

end Settle

section LockStep

variable {State' : Type w} (N : TransitionSystem State' Action) {f : State → State'}
  {I : State → Prop}

/-- If `f` commutes with the steps from the states of an invariant `I`, it commutes with
the runs from them. -/
theorem run_map
    (hstep : ∀ a s t, I s → M.step a s = some t → I t)
    (hmap : ∀ a s, I s → N.step a (f s) = (M.step a s).map f)
    (as : List Action) {s : State} (hs : I s) :
  N.run as (f s) = (M.run as s).map f
  := by
  induction as generalizing s with
  | nil => rfl
  | cons a as ih =>
      rw [run, run, hmap a s hs]
      cases h : M.step a s with
      | none => rfl
      | some t => apply ih (hstep a s t hs h)

/-- If `f` commutes with the steps from the states of an invariant and carries the initial
state to the initial state, the reachable states of `N` are the images of those of `M`. -/
theorem reachable_map_iff
    (hinit : I M.initial) (hstep : ∀ a s t, I s → M.step a s = some t → I t)
    (hmap : ∀ a s, I s → N.step a (f s) = (M.step a s).map f)
    (hf : f M.initial = N.initial) {s' : State'} :
  N.Reachable s' ↔ ∃ s, M.Reachable s ∧ f s = s'
  := by
  constructor
  · rintro ⟨as, h⟩
    rw [← hf, run_map N hstep hmap as hinit] at h
    obtain ⟨s, hs, hfs⟩ := Option.map_eq_some_iff.mp h
    use s, ⟨as, hs⟩
  · rintro ⟨s, ⟨as, hs⟩, rfl⟩
    use as
    rw [← hf, run_map N hstep hmap as hinit, hs]
    rfl

end LockStep

end TransitionSystem
