import LowLatency.Disruptor.ExclusivePublication

/-!
# The debug build runs the machine

Forgetting `producer_state_` and the handles that are not live turns a run of the debug build
whose operations respect the rules into a run of the machine. Moves of a handle, and the
destruction of a handle that is moved from, leave the machine where it is.
-/

namespace Disruptor

namespace Debug

namespace State

variable {P Event : Type} {A : PositionArithmetic P} {g : Geometry} {s s' : State P Event}

/-- The live handle. -/
def session (s : State P Event) : Option (ProducerHandle P) :=
  (s.handles.find? fun h => h.any (·.owner)).join

/-- Where the innermost call stands. -/
def pc (s : State P Event) : ProducerPc P Event :=
  match s.calls with
  | [] => .idle
  | c :: _ => c.pc

/-- The machine a debug build runs. -/
def toMachine (s : State P Event) : Disruptor.State P Event where
  producer :=
    { events := s.events
      published := s.published
      owner := s.owner
      session := s.session
      movedFrom := []
      pc := s.pc
      views := s.views
      written := s.written
      accepted := s.accepted
      returned := s.returned }
  consumer := s.consumer

/-! ### The live handle -/

theorem session_eq_none (h : s.anyLive = false) :
  s.session = none
  := by
  rw [session, List.find?_eq_none.mpr]
  · rfl
  · intro handle hmem hlive
    rw [anyLive, List.any_eq_false] at h
    apply h handle hmem hlive

theorem session_eq_some (hunique : ∀ i j, s.live i = true → s.live j = true → i = j)
    {place : ℕ} {h : ProducerHandle P} (hplace : s.handleAt place = some h)
    (howner : h.owner = true) :
  s.session = some h
  := by
  have hlive : s.live place = true := (live_eq_owner hplace).trans howner
  cases hfind : s.handles.find? fun h => h.any (·.owner) with
  | none =>
      have hany := anyLive_iff.mpr ⟨place, hlive⟩
      obtain ⟨handle, hmem, howned⟩ := List.any_eq_true.mp hany
      cases List.find?_eq_none.mp hfind handle hmem howned
  | some handle =>
      obtain ⟨i, hi⟩ := List.mem_iff_getElem?.mp (List.mem_of_find?_eq_some hfind)
      have hlive' : s.live i = true := by
        rw [live, handleAt, hi]
        apply List.find?_some hfind
      obtain rfl := hunique i place hlive' hlive
      rw [session, hfind]
      rw [handleAt, hi] at hplace
      apply hplace

/-- The live handle is the one that has an owner. -/
theorem session_iff (hs : s.Inv) {h : ProducerHandle P} :
  s.session = some h ↔ h.owner = true ∧ ∃ place, s.handleAt place = some h
  := by
  constructor
  · intro hsession
    have hfind := Option.join_eq_some_iff.mp hsession
    obtain ⟨i, hi⟩ := List.mem_iff_getElem?.mp (List.mem_of_find?_eq_some hfind)
    constructor
    · apply List.find?_some hfind
    · use i
      rw [handleAt, hi]
      rfl
  · rintro ⟨howner, place, hplace⟩
    apply session_eq_some hs.unique hplace howner

theorem toMachine_eq {handle : Option (ProducerHandle P)} (h : s.session = handle) :
  s.toMachine = { s.toMachine with producer := { s.toMachine.producer with session := handle } }
  := by
  subst h
  rfl

/-- A call on a path in use works on the producer of the machine. -/
theorem producer_eq (hs : s.Inv) {path : Path} (hpath : s.InUse path) :
  s.producer path s.pc = s.toMachine.producer
  := by
  have hsession : (s.producer path s.pc).session = s.session := by
    cases path with
    | direct =>
        rw [session_eq_none hpath]
        rfl
    | handle place =>
        obtain ⟨h, hplace, howner⟩ := live_iff.mp hpath
        rw [session_eq_some hs.unique hplace howner]
        apply hplace
  rw [toMachine, ← hsession]
  rfl

/-- The live handle after a step of a call on a path in use is the one the call works on. -/
theorem session_after (hs : s.Inv) {path : Path} {p : Producer P Event} (hpath : s.InUse path)
    (hsame : (s.producer path s.pc).SameHandles p) :
  (s.after { path := path, pc := s.pc } [] p).session = p.session
  := by
  have hlive : ∀ place, (s.after { path := path, pc := s.pc } [] p).live place = s.live place :=
    live_after hpath hsame
  have howner := hsame.owner
  cases path with
  | direct =>
      rw [session_eq_none]
      · symm
        apply Option.map_eq_none_iff.mp howner
      · rw [anyLive_eq hlive]
        apply hpath
  | handle place =>
      obtain ⟨h, hplace, howned⟩ := live_iff.mp hpath
      have hsession : (s.producer (.handle place) s.pc).session = some h := hplace
      rw [hsession] at howner
      obtain ⟨h', hh', howner'⟩ := Option.map_eq_some_iff.mp howner
      rw [hh']
      apply session_eq_some
      · intro i j hi hj
        rw [hlive] at hi hj
        apply hs.unique i j hi hj
      · simp only [State.after, handlesAfter, handleAt]
        rw [join_getElem?_set hplace, if_pos rfl]
        apply hh'
      · apply howner'.trans howned

/-- A step of a call on a path in use is a step of the producer of the machine. -/
theorem toMachine_after (hs : s.Inv) {path : Path} {p : Producer P Event} (hpath : s.InUse path)
    (hsame : (s.producer path s.pc).SameHandles p) :
  (s.after { path := path, pc := s.pc } [] p).toMachine = { s.toMachine with producer := p }
  := by
  have hpc : (s.after { path := path, pc := s.pc } [] p).pc = p.pc := by
    simp only [pc, State.after, callsAfter]
    cases p.pc with
    | idle => rfl
    | _ => rfl
  rw [toMachine, session_after hs hpath hsame, hpc]
  have hmoved : p.movedFrom = [] := hsame.movedFrom
  obtain ⟨⟩ := p
  cases hmoved
  rfl

/-! ### The operations -/

theorem pc_eq_idle (hcalls : s.calls = []) :
  s.pc = .idle
  := by
  rw [pc, hcalls]

/-- A step of the producer thread is a step of the producer of the machine or leaves it. -/
def Simulates (A : PositionArithmetic P) (g : Geometry) (s s' : State P Event) : Prop :=
  s'.toMachine = s.toMachine ∨
    ∃ a, s.toMachine.step A g (.producer a) = some s'.toMachine

theorem simulates_makeProducer (hlive : s.anyLive = false) (hcalls : s.calls = [])
    (h : s.makeProducer = .ok s') (hs' : s'.Inv) :
  Simulates A g s s'
  := by
  rw [makeProducer] at h
  split at h
  case isTrue =>
    obtain rfl := Except.ok.inj h
    right
    use .makeProducer
    apply Disruptor.State.step_producer.mpr
    use { s.toMachine.producer with session := some { owner := true, state := s.owner } }
    constructor
    · simp only [Producer.step, toMachine, pc_eq_idle hcalls, session_eq_none hlive]
    · have hsession := (session_iff hs' (h := { owner := true, state := s.owner })).mpr
        ⟨rfl, s.handles.length, (join_getElem?_concat _ _ _).trans (if_pos rfl)⟩
      rw [toMachine_eq hsession]
      rfl
  case isFalse => cases h

/-- States with the same live handles have the same one. -/
theorem session_eq (hs : s.Inv) (hs' : s'.Inv)
    (h : ∀ handle : ProducerHandle P, handle.owner = true →
      ((∃ place, s'.handleAt place = some handle) ↔ ∃ place, s.handleAt place = some handle)) :
  s'.session = s.session
  := by
  ext handle
  rw [session_iff hs, session_iff hs']
  constructor
  · rintro ⟨howner, hplace⟩
    use howner
    apply (h handle howner).mp hplace
  · rintro ⟨howner, hplace⟩
    use howner
    apply (h handle howner).mpr hplace

theorem simulates_moveHandle {place : ℕ} {handle : ProducerHandle P} (hs : s.Inv)
    (hplace : s.handleAt place = some handle) (h : s.moveHandle place handle = .ok s')
    (hs' : s'.Inv) :
  Simulates A g s s'
  := by
  rw [moveHandle_eq] at h
  split at h
  case isTrue =>
    obtain rfl := Except.ok.inj h
    left
    rw [toMachine, toMachine, session_eq hs hs']
    · rfl
    · intro k howner
      constructor
      · rintro ⟨i, hi⟩
        rw [handleAt, join_getElem?_concat, List.length_set, join_getElem?_set hplace] at hi
        split_ifs at hi with hlength heq
        · use place
          rw [hplace, hi]
        · obtain rfl := Option.some.inj hi
          cases howner
        · use i
          apply hi
      · rintro ⟨i, hi⟩
        have hlength : i ≠ s.handles.length := by
          rintro rfl
          rw [handleAt, List.getElem?_eq_none le_rfl] at hi
          cases hi
        by_cases heq : i = place
        · use s.handles.length
          rw [handleAt, join_getElem?_concat, List.length_set, if_pos rfl, ← hplace, ← heq, hi]
        · use i
          rw [handleAt, join_getElem?_concat, List.length_set, join_getElem?_set hplace,
            if_neg hlength, if_neg heq]
          apply hi
  case isFalse => cases h

theorem simulates_destroyHandle {place : ℕ} {handle : ProducerHandle P} (hs : s.Inv)
    (hplace : s.handleAt place = some handle) (hcalls : handle.owner = true → s.calls = [])
    (h : s.destroyHandle place handle = .ok s') (hs' : s'.Inv) :
  Simulates A g s s'
  := by
  rw [destroyHandle] at h
  split at h
  case isTrue =>
    obtain rfl := Except.ok.inj h
    have hat : ∀ i, (s.handles.set place none)[i]?.join =
        if i = place then none else s.handleAt i :=
      join_getElem?_set hplace none
    by_cases howner : handle.owner = true
    · right
      use .destroyHandle
      apply Disruptor.State.step_producer.mpr
      use { s.toMachine.producer with session := none, owner := handle.state }
      have hsession := (session_iff hs).mpr ⟨howner, place, hplace⟩
      constructor
      · simp only [Producer.step, toMachine, pc_eq_idle (hcalls howner), hsession,
          ProducerHandle.synchronizeOwnerState, howner, if_true]
      · have hnone : session { s with
            producerState := if handle.owner then .idle else s.producerState
            owner := handle.synchronizeOwnerState s.owner
            handles := s.handles.set place none } = none := by
          rw [Option.eq_none_iff_forall_ne_some]
          intro k hk
          obtain ⟨howned, i, hi⟩ := (session_iff hs').mp hk
          rw [handleAt, hat] at hi
          split_ifs at hi with heq
          apply heq
          apply hs.unique i place
          · apply (live_eq_owner hi).trans howned
          · apply (live_eq_owner hplace).trans howner
        rw [toMachine_eq hnone]
        simp only [toMachine, ProducerHandle.synchronizeOwnerState, howner, if_true]
        rfl
    · left
      rw [toMachine, toMachine, session_eq hs hs']
      · simp only [ProducerHandle.synchronizeOwnerState, if_neg howner]
        rfl
      · intro k howned
        constructor
        · rintro ⟨i, hi⟩
          rw [handleAt, hat] at hi
          split_ifs at hi
          use i
        · rintro ⟨i, hi⟩
          use i
          rw [handleAt, hat, if_neg]
          · apply hi
          · rintro rfl
            rw [hplace] at hi
            obtain rfl := Option.some.inj hi
            apply howner howned
  case isFalse => cases h

/-- The call that begins a publication works on the producer of the machine. -/
theorem toMachine_tryPublishBatch (hs : s.Inv) {path : Path} (hpath : s.InUse path)
    (hcalls : s.calls = []) (count : ℕ) (writer : Writer Event) :
  (s.tryPublishBatch g path count writer).toMachine =
    { s.toMachine with producer := s.toMachine.producer.tryPublishBatch g count writer }
  := by
  have hpc := pc_eq_idle hcalls
  rw [tryPublishBatch, hcalls, ← hpc, producer_eq hs hpath]
  apply toMachine_after hs hpath
  rw [producer_eq hs hpath]
  apply Producer.sameHandles_tryPublishBatch

/-- An operation that respects the rules is a step of the producer of the machine or leaves
it. -/
theorem simulates_perform {operation : Operation Event} (hs : s.Inv)
    (hissuing : s.issuing = true) (hrespects : s.respects operation = true)
    (h : s.perform g operation = some (.ok s')) :
  Simulates A g s s'
  := by
  have hs' : s'.Inv := by
    obtain ⟨t, ht, hinv⟩ := hs.perform (g := g) hissuing (applicable_of_perform h) hrespects
    rw [h] at ht
    obtain rfl := Except.ok.inj (Option.some.inj ht)
    apply hinv
  cases operation with
  | makeProducer =>
      simp only [respects, Bool.and_eq_true, Bool.not_eq_true', List.isEmpty_iff] at hrespects
      apply simulates_makeProducer hrespects.1 hrespects.2 (Option.some.inj h) hs'
  | moveHandle place =>
      obtain ⟨handle, hplace, hmove⟩ := Option.map_eq_some_iff.mp h
      apply simulates_moveHandle hs hplace hmove hs'
  | destroyHandle place =>
      obtain ⟨handle, hplace, hdestroy⟩ := Option.map_eq_some_iff.mp h
      simp only [respects, Bool.or_eq_true, Bool.not_eq_true', List.isEmpty_iff,
        live_eq_owner hplace] at hrespects
      apply simulates_destroyHandle hs hplace _ hdestroy hs'
      intro howner
      apply hrespects.resolve_left
      simp [howner]
  | publishHandle place count writer =>
      simp only [respects, Bool.and_eq_true, List.isEmpty_iff] at hrespects
      obtain ⟨hlive, hcalls⟩ := hrespects
      obtain ⟨handle, hplace, hpublish⟩ := Option.map_eq_some_iff.mp h
      rw [publishHandle] at hpublish
      split at hpublish
      case isTrue howner =>
        obtain rfl := Except.ok.inj hpublish
        right
        use .publishHandle count writer
        apply Disruptor.State.step_producer.mpr
        use s.toMachine.producer.tryPublishBatch g count writer
        constructor
        · simp only [Producer.step, toMachine, pc_eq_idle hcalls,
            (session_iff hs).mpr ⟨howner.1, place, hplace⟩]
        · symm
          apply toMachine_tryPublishBatch hs _ hcalls
          apply hlive
      case isFalse => cases hpublish
  | publish count writer =>
      simp only [respects, Bool.and_eq_true, Bool.not_eq_true', List.isEmpty_iff] at hrespects
      obtain ⟨hlive, hcalls⟩ := hrespects
      have hpublish := Option.some.inj h
      rw [publish] at hpublish
      split at hpublish
      case isTrue =>
        obtain rfl := Except.ok.inj hpublish
        right
        use .publish count writer
        apply Disruptor.State.step_producer.mpr
        use s.toMachine.producer.tryPublishBatch g count writer
        constructor
        · simp only [Producer.step, toMachine, pc_eq_idle hcalls, session_eq_none hlive]
        · symm
          apply toMachine_tryPublishBatch hs _ hcalls
          apply hlive
      case isFalse => cases hpublish

/-- The next step of a publication is that of the machine. -/
theorem simulates_resume {place : ℕ} (hs : s.Inv) (h : s.resume A g place = some s') :
  Simulates A g s s'
  := by
  rw [resume] at h
  cases hs.calls with
  | inl hnil =>
      rw [hnil] at h
      cases h
  | inr hsingle =>
      obtain ⟨⟨path, pc⟩, hc, hpath⟩ := hsingle
      obtain rfl : s.pc = pc := by
        rw [State.pc, hc]
      rw [hc] at h
      obtain ⟨p, hp, rfl⟩ := Option.map_eq_some_iff.mp h
      right
      use .resume place
      apply Disruptor.State.step_producer.mpr
      use p
      constructor
      · rw [← producer_eq hs hpath]
        apply hp
      · symm
        apply toMachine_after hs hpath
        apply Producer.sameHandles_resume hp

/-! ### Runs -/

theorem reachable_of_simulates [Inhabited Event] {initialPosition : P}
    (hs : (machine Event A g initialPosition).Reachable s.toMachine) (h : Simulates A g s s') :
  (machine Event A g initialPosition).Reachable s'.toMachine
  := by
  cases h with
  | inl heq =>
      rw [heq]
      apply hs
  | inr hstep =>
      obtain ⟨a, ha⟩ := hstep
      apply Disruptor.State.reachable_of_step hs ha

/-- A step that respects the rules is a step of the machine or leaves it. -/
theorem reachable_step [Inhabited Event] {initialPosition : P} {a : Action Event} (hs : s.Inv)
    (hreachable : (machine Event A g initialPosition).Reachable s.toMachine)
    (hobeys : obeys (.ok s) a = true) (h : s.step A g a = some (.ok s')) :
  (machine Event A g initialPosition).Reachable s'.toMachine
  := by
  cases a with
  | issue operation =>
      rw [State.step] at h
      split at h
      case isTrue hissuing =>
        apply reachable_of_simulates hreachable
        apply simulates_perform hs hissuing hobeys h
      case isFalse => cases h
  | resume place =>
      obtain ⟨t, ht, heq⟩ := Option.map_eq_some_iff.mp h
      obtain rfl := Except.ok.inj heq
      apply reachable_of_simulates hreachable
      apply simulates_resume hs ht
  | consumer i action =>
      obtain ⟨c, hc, heq⟩ := Option.map_eq_some_iff.mp h
      obtain rfl := Except.ok.inj heq
      apply Disruptor.State.reachable_of_step hreachable (a := .consumer i action)
      apply Disruptor.State.step_consumer.mpr
      use c, hc
      rfl

/-- A debug build whose operations respect the rules runs the machine. -/
theorem reachable_toMachine [Inhabited Event] {initialPosition : P}
    (h : ((build Event A g initialPosition).restrict obeys).Reachable (.ok s)) :
  (machine Event A g initialPosition).Reachable s.toMachine
  := by
  have hrun : ∃ t : State P Event, Except.ok s = (.ok t : Except Assertion (State P Event)) ∧
      t.Inv ∧ (machine Event A g initialPosition).Reachable t.toMachine := by
    apply h.invariant (I := fun outcome => ∃ t, outcome = .ok t ∧ t.Inv ∧
      (machine Event A g initialPosition).Reachable t.toMachine)
    · use State.init g initialPosition, rfl, inv_init g initialPosition
      apply TransitionSystem.Reachable.initial
    · rintro a _ outcome ⟨t, rfl, ht, hreachable⟩ hstep
      obtain ⟨hobeys, hstep⟩ := TransitionSystem.restrict_step.mp hstep
      obtain ⟨t', rfl, ht'⟩ := ht.step hobeys hstep
      use t', rfl, ht'
      apply reachable_step ht hreachable hobeys hstep
  obtain ⟨t, heq, -, hreachable⟩ := hrun
  obtain rfl := Except.ok.inj heq
  apply hreachable

end State

end Debug

end Disruptor
