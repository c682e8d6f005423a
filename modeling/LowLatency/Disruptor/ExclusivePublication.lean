import LowLatency.Disruptor.DebugBuild
import LowLatency.Disruptor.Invariant

/-!
# Exclusive publication

The rules of exclusive publication, read off the handles of a state and its calls in progress.
As long as the operations respect them, at most one handle is live, at most one publication is
in progress, and `producer_state_` tells which; so an assertion fails exactly at an operation
that breaks a rule.
-/

namespace Disruptor

namespace Debug

/-- The assertion an operation is checked by. -/
def Operation.assertion {Event : Type} : Operation Event → Assertion
  | .makeProducer => .makeProducer
  | .moveHandle _ => .move
  | .destroyHandle _ => .destroy
  | .publishHandle _ _ _ => .publishHandle
  | .publish _ _ => .publish

/-- The state while a publication on `path` is at `pc`. -/
def Path.standing {P Event : Type} (path : Path) (pc : ProducerPc P Event) :
    ProducerDebugState :=
  if admitted pc then path.publishing else path.published

/-- What a step of a publication stores keeps the state that of the publication. -/
theorem Path.mark_standing {P Event : Type} (path : Path) (pc pc' : ProducerPc P Event) :
  path.mark pc pc' (path.standing pc) = path.standing pc'
  := by
  rw [mark, standing, standing]
  cases admitted pc with
  | false =>
      cases admitted pc' with
      | false => rfl
      | true => rfl
  | true =>
      cases admitted pc' with
      | false => rfl
      | true => rfl

namespace State

variable {P Event : Type} {A : PositionArithmetic P} {g : Geometry} {s s' : State P Event}

/-! ### The rules -/

/-- The handle at a place is live. -/
def live (s : State P Event) (place : ℕ) : Bool :=
  (s.handleAt place).any (·.owner)

/-- A handle is live. -/
def anyLive (s : State P Event) : Bool :=
  s.handles.any fun h => h.any (·.owner)

/-- The rules. A new handle and a publication of the disruptor need that no handle is live and
no publication in progress, a publication of a handle that the handle is live and no
publication in progress. A live handle is left alone while a publication is in progress. -/
def respects (s : State P Event) : Operation Event → Bool
  | .makeProducer => !s.anyLive && s.calls.isEmpty
  | .moveHandle place => !s.live place || s.calls.isEmpty
  | .destroyHandle place => !s.live place || s.calls.isEmpty
  | .publishHandle place _ _ => s.live place && s.calls.isEmpty
  | .publish _ _ => !s.anyLive && s.calls.isEmpty

/-- The handle an operation is issued on exists. -/
def applicable (s : State P Event) : Operation Event → Bool
  | .makeProducer => true
  | .moveHandle place => (s.handleAt place).isSome
  | .destroyHandle place => (s.handleAt place).isSome
  | .publishHandle place _ _ => (s.handleAt place).isSome
  | .publish _ _ => true

/-- What `producer_state_` is to be: it tells the publication that has admitted a batch, whose
writers are running, or else whether a handle is live. -/
def expected (s : State P Event) : ProducerDebugState :=
  match s.calls.find? fun c => admitted c.pc with
  | some c => c.path.publishing
  | none => if s.anyLive then .handle else .idle

/-! ### Live handles -/

theorem live_iff {place : ℕ} :
  s.live place = true ↔ ∃ h, s.handleAt place = some h ∧ h.owner = true
  := Option.any_eq_true _ _

/-- A handle is live when the one at some place is. -/
theorem anyLive_iff :
  s.anyLive = true ↔ ∃ place, s.live place = true
  := by
  rw [anyLive, List.any_eq_true]
  constructor
  · rintro ⟨h, hmem, hlive⟩
    obtain ⟨place, hplace⟩ := List.mem_iff_getElem?.mp hmem
    use place
    rw [live, handleAt, hplace]
    apply hlive
  · rintro ⟨place, hlive⟩
    rw [live, handleAt] at hlive
    cases hplace : s.handles[place]? with
    | none =>
        rw [hplace] at hlive
        cases hlive
    | some h =>
        rw [hplace] at hlive
        use h, List.mem_of_getElem? hplace
        apply hlive

theorem live_eq_false (h : s.anyLive = false) (place : ℕ) :
  s.live place = false
  := by
  by_contra hlive
  rw [Bool.not_eq_false] at hlive
  rw [anyLive_iff.mpr ⟨place, hlive⟩] at h
  cases h

/-- When handles are live at the same places, the same is expected of the state, as long as the
calls are the same. -/
theorem anyLive_eq (h : ∀ place, s'.live place = s.live place) :
  s'.anyLive = s.anyLive
  := by
  rw [Bool.eq_iff_iff, anyLive_iff, anyLive_iff]
  simp only [h]

/-- Where there is a handle, another one is put. -/
theorem join_getElem?_set {l : List (Option (ProducerHandle P))} {place : ℕ}
    {h : ProducerHandle P} (hplace : l[place]?.join = some h)
    (handle : Option (ProducerHandle P)) (i : ℕ) :
  (l.set place handle)[i]?.join = if i = place then handle else l[i]?.join
  := by
  rw [List.getElem?_set]
  by_cases hi : place = i
  · subst hi
    have hlt : place < l.length := by
      by_contra hge
      rw [List.getElem?_eq_none (by omega)] at hplace
      cases hplace
    rw [if_pos rfl, if_pos hlt, if_pos rfl]
    rfl
  · rw [if_neg hi, if_neg (Ne.symm hi)]

/-- A handle is put behind the others. -/
theorem join_getElem?_concat (l : List (Option (ProducerHandle P))) (h : ProducerHandle P)
    (i : ℕ) :
  (l ++ [some h])[i]?.join = if i = l.length then some h else l[i]?.join
  := by
  by_cases hi : i = l.length
  · rw [if_pos hi, hi, List.getElem?_concat_length]
    rfl
  · rw [if_neg hi]
    by_cases hlt : i < l.length
    · rw [List.getElem?_append_left hlt]
    · have hlength : (l ++ [some h]).length = l.length + 1 := List.length_append
      rw [List.getElem?_eq_none (by omega), List.getElem?_eq_none (by omega)]

/-! ### The invariant -/

/-- The path of a publication in progress is in use: no handle is live beside it. -/
def InUse (s : State P Event) : Path → Prop
  | .direct => s.anyLive = false
  | .handle place => s.live place = true

/-- At most one handle is live, and at most one publication in progress. -/
structure Inv (s : State P Event) : Prop where
  state : s.producerState = s.expected
  unique : ∀ i j, s.live i = true → s.live j = true → i = j
  calls : s.calls = [] ∨ ∃ c, s.calls = [c] ∧ s.InUse c.path

theorem expected_nil (h : s.calls = []) :
  s.expected = if s.anyLive then .handle else .idle
  := by
  rw [expected, h]
  rfl

/-- Between publications the state is what a publication on the path in use leaves. -/
theorem InUse.published {path : Path} (h : s.InUse path) :
  (if s.anyLive then .handle else .idle) = path.published
  := by
  cases path with
  | direct =>
      rw [InUse] at h
      rw [h]
      rfl
  | handle place =>
      rw [anyLive_iff.mpr ⟨place, h⟩]
      rfl

theorem expected_single {c : Call P Event} (h : s.calls = [c]) (hpath : s.InUse c.path) :
  s.expected = c.path.standing c.pc
  := by
  rw [expected, h, Path.standing]
  cases hpc : admitted c.pc with
  | true => simp only [List.find?_cons, hpc, if_true]
  | false =>
      simp only [List.find?_cons, hpc, List.find?_nil]
      apply hpath.published

theorem InUse.of_live {path : Path} (hpath : s.InUse path)
    (hlive : ∀ place, s'.live place = s.live place) :
  s'.InUse path
  := by
  cases path with
  | direct =>
      rw [InUse, anyLive_eq hlive]
      apply hpath
  | handle place =>
      rw [InUse, hlive]
      apply hpath

/-- The invariant speaks of the state, the live handles and the calls only. -/
theorem Inv.of_live (hs : s.Inv) (hlive : ∀ place, s'.live place = s.live place)
    (hstate : s'.producerState = s.producerState) (hcalls : s'.calls = s.calls) :
  s'.Inv
  := by
  constructor
  · rw [hstate, hs.state, expected, expected, hcalls, anyLive_eq hlive]
  · intro i j hi hj
    rw [hlive] at hi hj
    apply hs.unique i j hi hj
  · rw [hcalls]
    cases hs.calls with
    | inl hnil =>
        left
        apply hnil
    | inr hsingle =>
        obtain ⟨c, hc, hpath⟩ := hsingle
        right
        use c, hc, hpath.of_live hlive

/-! ### What the state tells the producer thread -/

/-- Inside a writer the state is that of a publication. -/
theorem Inv.state_of_calls (hs : s.Inv) (hissuing : s.issuing = true) (hcalls : s.calls ≠ []) :
  ∃ path : Path, s.producerState = path.publishing
  := by
  cases hs.calls with
  | inl hnil => cases hcalls hnil
  | inr hsingle =>
      obtain ⟨c, hc, hpath⟩ := hsingle
      use c.path
      rw [hs.state, expected_single hc hpath, Path.standing]
      rw [issuing, hc] at hissuing
      cases hpc : c.pc with
      | write => rfl
      | _ =>
          simp only [hpc] at hissuing
          cases hissuing

/-- The state is `idle` exactly when no handle is live and no publication in progress. -/
theorem Inv.idle_iff (hs : s.Inv) (hissuing : s.issuing = true) :
  s.producerState = .idle ↔ s.anyLive = false ∧ s.calls = []
  := by
  by_cases hcalls : s.calls = []
  · rw [hs.state, expected_nil hcalls]
    cases s.anyLive with
    | false => simp [hcalls]
    | true => simp
  · obtain ⟨path, hpath⟩ := hs.state_of_calls hissuing hcalls
    rw [hpath]
    cases path with
    | direct => simp [Path.publishing, hcalls]
    | handle => simp [Path.publishing, hcalls]

/-- The state is `handle` exactly when a handle is live and no publication in progress. -/
theorem Inv.handle_iff (hs : s.Inv) (hissuing : s.issuing = true) :
  s.producerState = .handle ↔ s.anyLive = true ∧ s.calls = []
  := by
  by_cases hcalls : s.calls = []
  · rw [hs.state, expected_nil hcalls]
    cases s.anyLive with
    | false => simp
    | true => simp [hcalls]
  · obtain ⟨path, hpath⟩ := hs.state_of_calls hissuing hcalls
    rw [hpath]
    cases path with
    | direct => simp [Path.publishing, hcalls]
    | handle => simp [Path.publishing, hcalls]

/-! ### The operations -/

/-- A step of a publication leaves which handles are live. -/
theorem live_after {c : Call P Event} {calls : List (Call P Event)} {p : Producer P Event}
    (hpath : s.InUse c.path)
    (hsame : (s.producer c.path c.pc).SameHandles p) (place : ℕ) :
  (s.after c calls p).live place = s.live place
  := by
  obtain ⟨path, pc⟩ := c
  cases path with
  | direct => rfl
  | handle i =>
      obtain ⟨h, hi, hlive⟩ := live_iff.mp hpath
      have hsession : (s.producer (.handle i) pc).session = some h := hi
      have howner := hsame.owner
      rw [hsession] at howner
      obtain ⟨h', hh', howner'⟩ := Option.map_eq_some_iff.mp howner
      simp only [live, State.after, handlesAfter, handleAt]
      rw [join_getElem?_set hi]
      split
      case isTrue heq =>
        subst heq
        rw [handleAt] at hi
        rw [hi, hh', Option.any_some, Option.any_some, howner']
      case isFalse => rfl

/-- A publication on a path in use keeps the invariant at every step. -/
theorem Inv.after {c : Call P Event} {p : Producer P Event} (hs : s.Inv)
    (hpath : s.InUse c.path) (hstate : s.producerState = c.path.standing c.pc)
    (hsame : (s.producer c.path c.pc).SameHandles p) :
  (s.after c [] p).Inv
  := by
  have hlive : ∀ place, (s.after c [] p).live place = s.live place := live_after hpath hsame
  have hstanding : (s.after c [] p).producerState = c.path.standing p.pc := by
    rw [State.after, hstate]
    apply Path.mark_standing
  constructor
  · rw [hstanding]
    cases hpc : p.pc with
    | idle =>
        rw [expected_nil (by simp only [State.after, callsAfter, hpc]), anyLive_eq hlive,
          hpath.published]
        rfl
    | _ =>
        have hcalls : (s.after c [] p).calls = [{ path := c.path, pc := p.pc }] := by
          simp only [State.after, callsAfter, hpc]
        rw [expected_single hcalls (hpath.of_live hlive), hpc]
  · intro i j hi hj
    rw [hlive] at hi hj
    apply hs.unique i j hi hj
  · cases hpc : p.pc with
    | idle =>
        left
        simp only [State.after, callsAfter, hpc]
    | _ =>
        right
        use { path := c.path, pc := p.pc }
        constructor
        · simp only [State.after, callsAfter, hpc]
        · apply hpath.of_live hlive

/-- At top level the state is `handle` when one handle is live. -/
theorem inv_of_only (place : ℕ) (hcalls : s.calls = []) (hstate : s.producerState = .handle)
    (honly : ∀ i, s.live i = true ↔ i = place) :
  s.Inv
  := by
  constructor
  · rw [hstate, expected_nil hcalls, anyLive_iff.mpr ⟨place, (honly place).mpr rfl⟩]
    rfl
  · intro i j hi hj
    rw [(honly i).mp hi, (honly j).mp hj]
  · left
    apply hcalls

/-- At top level the state is `idle` when no handle is live. -/
theorem inv_of_none (hcalls : s.calls = []) (hstate : s.producerState = .idle)
    (hnone : ∀ i, s.live i = false) :
  s.Inv
  := by
  have hlive : s.anyLive = false := by
    by_contra h
    rw [Bool.not_eq_false, anyLive_iff] at h
    obtain ⟨place, hplace⟩ := h
    rw [hnone] at hplace
    cases hplace
  constructor
  · rw [hstate, expected_nil hcalls, hlive]
    rfl
  · intro i j hi
    rw [hnone] at hi
    cases hi
  · left
    apply hcalls

/-- A handle is made when none is live. -/
theorem Inv.makeProducer (hs : s.Inv) (hissuing : s.issuing = true)
    (hlive : s.anyLive = false) (hcalls : s.calls = []) :
  ∃ s', s.makeProducer = .ok s' ∧ s'.Inv
  := by
  rw [State.makeProducer, if_pos ((hs.idle_iff hissuing).mpr ⟨hlive, hcalls⟩)]
  refine ⟨_, rfl, ?_⟩
  apply inv_of_only s.handles.length
  · apply hcalls
  · rfl
  · intro i
    rw [live, handleAt, join_getElem?_concat]
    split
    case isTrue heq => simp [heq]
    case isFalse hne =>
      have hfalse : (s.handles[i]?.join.any fun h => h.owner) = false := live_eq_false hlive i
      simp [hfalse, hne]

section Handle

variable {place : ℕ} {h : ProducerHandle P}

theorem live_eq_owner (hplace : s.handleAt place = some h) :
  s.live place = h.owner
  := by
  rw [live, hplace, Option.any_some]

/-- With a live handle and no publication in progress the state is `handle`. -/
theorem Inv.state_of_owner (hs : s.Inv) (hissuing : s.issuing = true)
    (hplace : s.handleAt place = some h) (howner : h.owner = true) (hcalls : s.calls = []) :
  s.producerState = .handle
  := by
  apply (hs.handle_iff hissuing).mpr
  use anyLive_iff.mpr ⟨place, (live_eq_owner hplace).trans howner⟩

theorem live_length :
  s.live s.handles.length = false
  := by
  rw [live, handleAt, List.getElem?_eq_none le_rfl]
  rfl

theorem moveHandle_eq :
  s.moveHandle place h =
    if h.owner = false ∨ s.producerState = .handle then
      .ok { s with
        handles := s.handles.set place (some { h with owner := false }) ++ [some h] }
    else .error .move
  := rfl

/-- A live handle is moved between publications, one that is moved from at any time. -/
theorem Inv.moveHandle (hs : s.Inv) (hissuing : s.issuing = true)
    (hplace : s.handleAt place = some h) (hcalls : h.owner = true → s.calls = []) :
  ∃ s', s.moveHandle place h = .ok s' ∧ s'.Inv
  := by
  have hlive := live_eq_owner hplace
  rw [moveHandle_eq]
  cases howner : h.owner with
  | false =>
      rw [howner] at hlive
      rw [if_pos (Or.inl rfl)]
      refine ⟨_, rfl, ?_⟩
      apply hs.of_live
      · intro i
        rw [live, handleAt, join_getElem?_concat, List.length_set, join_getElem?_set hplace]
        split_ifs with hlength hi
        · rw [hlength, live_length]
          apply howner
        · rw [hi, hlive]
          rfl
        · rfl
      · rfl
      · rfl
  | true =>
      have hstate := hs.state_of_owner hissuing hplace howner (hcalls howner)
      rw [howner] at hlive
      rw [if_pos (Or.inr hstate)]
      refine ⟨_, rfl, ?_⟩
      apply inv_of_only s.handles.length
      · apply hcalls howner
      · apply hstate
      · intro i
        rw [live, handleAt, join_getElem?_concat, List.length_set, join_getElem?_set hplace]
        split_ifs with hlength hi
        · simp [howner, hlength]
        · simp [hlength]
        · constructor
          · intro hother
            cases hi (hs.unique i place hother hlive)
          · intro heq
            cases hlength heq

/-- A live handle is destroyed between publications, one that is moved from at any time. -/
theorem Inv.destroyHandle (hs : s.Inv) (hissuing : s.issuing = true)
    (hplace : s.handleAt place = some h) (hcalls : h.owner = true → s.calls = []) :
  ∃ s', s.destroyHandle place h = .ok s' ∧ s'.Inv
  := by
  have hlive := live_eq_owner hplace
  rw [State.destroyHandle]
  cases howner : h.owner with
  | false =>
      rw [howner] at hlive
      rw [if_pos (Or.inl rfl)]
      refine ⟨_, rfl, ?_⟩
      apply hs.of_live
      · intro i
        rw [live, handleAt, join_getElem?_set hplace]
        split_ifs with hi
        · rw [hi, hlive]
          rfl
        · rfl
      · rfl
      · rfl
  | true =>
      have hstate := hs.state_of_owner hissuing hplace howner (hcalls howner)
      rw [howner] at hlive
      rw [if_pos (Or.inr hstate)]
      refine ⟨_, rfl, ?_⟩
      apply inv_of_none
      · apply hcalls howner
      · rfl
      · intro i
        rw [live, handleAt, join_getElem?_set hplace]
        split_ifs with hi
        · rfl
        · by_contra hother
          rw [Bool.not_eq_false] at hother
          cases hi (hs.unique i place hother hlive)

/-- A publication on a path in use begins. -/
theorem Inv.tryPublishBatch {path : Path} (hs : s.Inv) (hpath : s.InUse path)
    (hcalls : s.calls = []) (count : ℕ) (writer : Writer Event) :
  (s.tryPublishBatch g path count writer).Inv
  := by
  rw [State.tryPublishBatch, hcalls]
  apply hs.after hpath
  · rw [hs.state, expected_nil hcalls, hpath.published]
    rfl
  · apply Producer.sameHandles_tryPublishBatch

end Handle

/-- An operation that respects the rules passes its assertion and keeps the invariant. -/
theorem Inv.perform {operation : Operation Event} (hs : s.Inv) (hissuing : s.issuing = true)
    (happlicable : s.applicable operation = true) (hrespects : s.respects operation = true) :
  ∃ s', s.perform g operation = some (.ok s') ∧ s'.Inv
  := by
  cases operation with
  | makeProducer =>
      simp only [respects, Bool.and_eq_true, Bool.not_eq_true', List.isEmpty_iff] at hrespects
      obtain ⟨s', hs', hinv⟩ := hs.makeProducer hissuing hrespects.1 hrespects.2
      use s', congrArg some hs'
  | moveHandle place =>
      obtain ⟨h, hplace⟩ := Option.isSome_iff_exists.mp happlicable
      simp only [respects, Bool.or_eq_true, Bool.not_eq_true', List.isEmpty_iff,
        live_eq_owner hplace] at hrespects
      obtain ⟨s', hs', hinv⟩ := hs.moveHandle hissuing hplace fun howner =>
        hrespects.resolve_left (by simp [howner])
      use s'
      rw [State.perform, hplace, Option.map_some, hs']
      use rfl
  | destroyHandle place =>
      obtain ⟨h, hplace⟩ := Option.isSome_iff_exists.mp happlicable
      simp only [respects, Bool.or_eq_true, Bool.not_eq_true', List.isEmpty_iff,
        live_eq_owner hplace] at hrespects
      obtain ⟨s', hs', hinv⟩ := hs.destroyHandle hissuing hplace fun howner =>
        hrespects.resolve_left (by simp [howner])
      use s'
      rw [State.perform, hplace, Option.map_some, hs']
      use rfl
  | publishHandle place count writer =>
      obtain ⟨h, hplace⟩ := Option.isSome_iff_exists.mp happlicable
      simp only [respects, Bool.and_eq_true, List.isEmpty_iff] at hrespects
      obtain ⟨hlive, hcalls⟩ := hrespects
      have howner : h.owner = true := (live_eq_owner hplace).symm.trans hlive
      use s.tryPublishBatch g (.handle place) count writer
      rw [State.perform, hplace, Option.map_some, State.publishHandle,
        if_pos ⟨howner, hs.state_of_owner hissuing hplace howner hcalls⟩]
      use rfl
      apply hs.tryPublishBatch _ hcalls
      apply hlive
  | publish count writer =>
      simp only [respects, Bool.and_eq_true, Bool.not_eq_true', List.isEmpty_iff] at hrespects
      obtain ⟨hlive, hcalls⟩ := hrespects
      use s.tryPublishBatch g .direct count writer
      rw [State.perform, State.publish, if_pos ((hs.idle_iff hissuing).mpr ⟨hlive, hcalls⟩)]
      use rfl
      apply hs.tryPublishBatch _ hcalls
      apply hlive

/-- An operation that breaks a rule fails its assertion. -/
theorem Inv.perform_error {operation : Operation Event} (hs : s.Inv)
    (hissuing : s.issuing = true) (happlicable : s.applicable operation = true)
    (hbreaks : s.respects operation = false) :
  s.perform g operation = some (.error operation.assertion)
  := by
  have hidle := hs.idle_iff hissuing
  have hhandle := hs.handle_iff hissuing
  cases operation with
  | makeProducer =>
      rw [State.perform, State.makeProducer, if_neg]
      · rfl
      · rw [hidle]
        rintro ⟨hlive, hcalls⟩
        simp [respects, hlive, hcalls] at hbreaks
  | moveHandle place =>
      obtain ⟨h, hplace⟩ := Option.isSome_iff_exists.mp happlicable
      rw [State.perform, hplace, Option.map_some, moveHandle_eq, if_neg]
      · rfl
      · rw [hhandle]
        rintro (howner | ⟨-, hcalls⟩)
        · simp [respects, live_eq_owner hplace, howner] at hbreaks
        · simp [respects, hcalls] at hbreaks
  | destroyHandle place =>
      obtain ⟨h, hplace⟩ := Option.isSome_iff_exists.mp happlicable
      rw [State.perform, hplace, Option.map_some, State.destroyHandle, if_neg]
      · rfl
      · rw [hhandle]
        rintro (howner | ⟨-, hcalls⟩)
        · simp [respects, live_eq_owner hplace, howner] at hbreaks
        · simp [respects, hcalls] at hbreaks
  | publishHandle place count writer =>
      obtain ⟨h, hplace⟩ := Option.isSome_iff_exists.mp happlicable
      rw [State.perform, hplace, Option.map_some, State.publishHandle, if_neg]
      · rfl
      · rw [hhandle]
        rintro ⟨howner, -, hcalls⟩
        simp [respects, live_eq_owner hplace, howner, hcalls] at hbreaks
  | publish count writer =>
      rw [State.perform, State.publish, if_neg]
      · rfl
      · rw [hidle]
        rintro ⟨hlive, hcalls⟩
        simp [respects, hlive, hcalls] at hbreaks

/-- The next step of a publication keeps the invariant. -/
theorem Inv.resume {place : ℕ} (hs : s.Inv) (h : s.resume A g place = some s') :
  s'.Inv
  := by
  rw [State.resume] at h
  cases hs.calls with
  | inl hnil =>
      rw [hnil] at h
      cases h
  | inr hsingle =>
      obtain ⟨c, hc, hpath⟩ := hsingle
      rw [hc] at h
      obtain ⟨p, hp, rfl⟩ := Option.map_eq_some_iff.mp h
      apply hs.after hpath
      · rw [hs.state, expected_single hc hpath]
      · apply Producer.sameHandles_resume hp

/-! ### Runs -/

/-- An operation that is issued respects the rules. -/
def obeys : Except Assertion (State P Event) → Action Event → Bool
  | .ok s, .issue operation => s.respects operation
  | _, _ => true

theorem applicable_of_perform {operation : Operation Event}
    {outcome : Except Assertion (State P Event)}
    (h : s.perform g operation = some outcome) :
  s.applicable operation = true
  := by
  cases operation with
  | makeProducer => rfl
  | publish => rfl
  | _ =>
      obtain ⟨handle, hplace, -⟩ := Option.map_eq_some_iff.mp h
      rw [applicable, hplace]
      rfl

/-- A step that respects the rules fails no assertion and keeps the invariant. -/
theorem Inv.step {a : Action Event} {outcome : Except Assertion (State P Event)} (hs : s.Inv)
    (hobeys : obeys (.ok s) a = true) (h : s.step A g a = some outcome) :
  ∃ s', outcome = .ok s' ∧ s'.Inv
  := by
  cases a with
  | issue operation =>
      rw [State.step] at h
      split at h
      case isTrue hissuing =>
        obtain ⟨s', hs', hinv⟩ := hs.perform (g := g) hissuing (applicable_of_perform h) hobeys
        rw [h] at hs'
        use s', Option.some.inj hs'
      case isFalse => cases h
  | resume place =>
      obtain ⟨s', hs', rfl⟩ := Option.map_eq_some_iff.mp h
      use s', rfl
      apply hs.resume hs'
  | consumer i action =>
      obtain ⟨c, -, rfl⟩ := Option.map_eq_some_iff.mp h
      refine ⟨_, rfl, ?_⟩
      apply hs.of_live
      · intro place
        rfl
      · rfl
      · rfl

theorem inv_init [Inhabited Event] (g : Geometry) (initialPosition : P) :
  (State.init g initialPosition : State P Event).Inv
  := by
  apply inv_of_none
  · rfl
  · rfl
  · intro i
    rfl

/-- As long as the operations respect the rules no assertion fails. -/
theorem inv_of_reachable [Inhabited Event] {initialPosition : P}
    {outcome : Except Assertion (State P Event)}
    (h : ((build Event A g initialPosition).restrict obeys).Reachable outcome) :
  ∃ s, outcome = .ok s ∧ s.Inv
  := by
  apply h.invariant (I := fun outcome => ∃ s, outcome = .ok s ∧ s.Inv)
  · use State.init g initialPosition, rfl
    apply inv_init
  · rintro a _ t ⟨s, rfl, hs⟩ hstep
    obtain ⟨hobeys, hstep⟩ := TransitionSystem.restrict_step.mp hstep
    apply hs.step hobeys hstep

end State

end Debug

end Disruptor
