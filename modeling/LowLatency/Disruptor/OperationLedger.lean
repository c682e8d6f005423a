import LowLatency.Disruptor.DebugSimulation

/-!
# The ledger of the operations

The rules of exclusive publication speak of what the producer thread has issued: which handles
it has made, moved and destroyed, and which publications it has begun. A ledger keeps this from
the operations alone, without a look at the disruptor. What the ledger says of the handles is
what the debug build holds, `producer_state_` is what the ledger says it is to be, and an
assertion fails exactly at an operation that breaks a rule.
-/

namespace Disruptor

namespace Producer

variable {P Event : Type} {A : PositionArithmetic P} {g : Geometry} {released : ℕ → Location P}
  {q q' : Producer P Event}

/-- A call is over with one more result, or is not over and has none yet. -/
def Answers (q q' : Producer P Event) : Prop :=
  q'.pc = .idle ∧ (∃ result, q'.returned = q.returned ++ [result]) ∨
    q'.pc ≠ .idle ∧ q'.returned = q.returned

/-- A call that returns. -/
theorem answers_finish (result : Bool) (h : q'.returned = q.returned) :
  q.Answers (q'.finish result)
  := by
  left
  use rfl, result
  rw [finish, h]

/-- A call that goes on. -/
theorem answers_goto {pc : ProducerPc P Event} (hpc : pc ≠ .idle)
    (h : q'.returned = q.returned) :
  q.Answers (q'.goto pc)
  := by
  right
  use hpc
  apply h

theorem answers_tryPublishBatch (count : ℕ) (writer : Writer Event) :
  q.Answers (q.tryPublishBatch g count writer)
  := by
  rw [tryPublishBatch]
  split_ifs
  · apply answers_finish _ rfl
  · apply answers_finish _ rfl
  · apply answers_goto _ rfl
    simp
  · right
    simp [accept]

theorem answers_resume {place : ℕ} (h : q.resume A g released place = some q') :
  q.Answers q'
  := by
  cases resumed_of_resume h with
  | loadBlocker =>
      rw [loadBlocker]
      split
      · apply answers_finish _ rfl
      · apply answers_goto _ rfl
        simp
  | skipScanned =>
      apply answers_goto _ rfl
      simp
  | loadScanned =>
      rw [loadScanned]
      split
      · apply answers_finish _ rfl
      · split
        all_goals
          apply answers_goto _ rfl
          simp
  | endScan =>
      right
      simp [endScan, accept, setState]
  | write =>
      rw [write]
      split
      all_goals
        apply answers_goto _ rfl
        simp
  | store => apply answers_finish _ rfl

end Producer

namespace Debug

/-- What became of a handle. -/
inductive HandleStatus where
  | live
  | movedFrom
  | destroyed
  deriving DecidableEq

/-- What the producer thread has issued: what became of the handles it has made, in the order
they were made, and the paths of the publications it has begun. -/
structure Ledger where
  handles : List HandleStatus
  publications : List Path

namespace Ledger

variable {P Event : Type}

/-- Nothing has been issued. -/
def empty : Ledger :=
  { handles := [], publications := [] }

/-- An operation is issued. A handle that is moved leaves what it was to a new one. -/
def issue (l : Ledger) : Operation Event → Ledger
  | .makeProducer => { l with handles := l.handles ++ [.live] }
  | .moveHandle place =>
      { l with handles := l.handles.set place .movedFrom ++ l.handles[place]?.toList }
  | .destroyHandle place => { l with handles := l.handles.set place .destroyed }
  | .publishHandle place _ _ => { l with publications := l.publications ++ [.handle place] }
  | .publish _ _ => { l with publications := l.publications ++ [.direct] }

/-- The ledger records what is issued. -/
def record (a : Action Event) (l : Ledger) : Ledger :=
  match a with
  | .issue operation => l.issue operation
  | _ => l

/-- The handle at a place is live. -/
def live (l : Ledger) (place : ℕ) : Bool :=
  l.handles[place]? = some .live

/-- A handle is live. -/
def anyLive (l : Ledger) : Bool :=
  l.handles.any (· = .live)

/-- There is a handle at a place: it was made and is not destroyed. -/
def holds (l : Ledger) (place : ℕ) : Bool :=
  l.handles[place]?.any (· ≠ .destroyed)

/-- The publication in progress after `returned` publications have returned. -/
def running (l : Ledger) (returned : ℕ) : Option Path :=
  l.publications[returned]?

/-- The rules. A new handle and a publication of the disruptor need that no handle is live and
no publication in progress, a publication of a handle that the handle is live and no
publication in progress. A live handle is left alone while a publication is in progress. -/
def respects (l : Ledger) (returned : ℕ) : Operation Event → Bool
  | .makeProducer => !l.anyLive && (l.running returned).isNone
  | .moveHandle place => !l.live place || (l.running returned).isNone
  | .destroyHandle place => !l.live place || (l.running returned).isNone
  | .publishHandle place _ _ => l.live place && (l.running returned).isNone
  | .publish _ _ => !l.anyLive && (l.running returned).isNone

/-- The handle an operation is issued on exists. -/
def applicable (l : Ledger) : Operation Event → Bool
  | .makeProducer => true
  | .moveHandle place => l.holds place
  | .destroyHandle place => l.holds place
  | .publishHandle place _ _ => l.holds place
  | .publish _ _ => true

/-- What `producer_state_` is to be: it tells the publication in progress once that has admitted
a batch, whose writers are running, or else whether a handle is live. -/
def expected (l : Ledger) (returned : ℕ) (pc : ProducerPc P Event) : ProducerDebugState :=
  match l.running returned, admitted pc with
  | some path, true => path.publishing
  | _, _ => if l.anyLive then .handle else .idle

/-- An operation that is issued respects the rules. -/
def obeys : Ledger × Except Assertion (State P Event) → Action Event → Bool
  | (l, .ok s), .issue operation => l.respects s.returned.length operation
  | _, _ => true

end Ledger

/-- The debug build beside the ledger, as long as the operations respect the rules. -/
def ruled {P : Type} (Event : Type) [Inhabited Event] (A : PositionArithmetic P) (g : Geometry)
    (initialPosition : P) :
    TransitionSystem (Ledger × Except Assertion (State P Event)) (Action Event) :=
  ((build Event A g initialPosition).recording .empty Ledger.record).restrict Ledger.obeys

/-- What became of the handle at a place. -/
def HandleStatus.ofHandle {P : Type} : Option (ProducerHandle P) → HandleStatus
  | none => .destroyed
  | some h => if h.owner then .live else .movedFrom

/-- The ledger is right about a state: about each handle, and about the publications that have
not returned. -/
structure Ledger.Agrees {P Event : Type} (l : Ledger) (s : State P Event) : Prop where
  handles : l.handles = s.handles.map .ofHandle
  began : l.publications.length = s.returned.length + s.calls.length
  running : l.publications.drop s.returned.length = s.calls.map (·.path)

namespace HandleStatus

variable {P : Type}

theorem ofHandle_eq_live {handle : Option (ProducerHandle P)} :
  ofHandle handle = .live ↔ handle.any (·.owner) = true
  := by
  cases handle with
  | none => simp [ofHandle]
  | some h =>
      rw [ofHandle, Option.any_some]
      cases h.owner with
      | false => simp
      | true => simp

theorem ofHandle_eq_destroyed {handle : Option (ProducerHandle P)} :
  ofHandle handle = .destroyed ↔ handle = none
  := by
  cases handle with
  | none => simp [ofHandle]
  | some h =>
      rw [ofHandle]
      cases h.owner with
      | false => simp
      | true => simp

/-- Whether a handle is live is all that a publication could change, and does not. -/
theorem ofHandle_congr {handle handle' : Option (ProducerHandle P)}
    (h : handle'.map (·.owner) = handle.map (·.owner)) :
  ofHandle handle' = ofHandle handle
  := by
  cases handle with
  | none =>
      rw [Option.map_eq_none_iff.mp h]
  | some k =>
      obtain ⟨k', rfl, howner⟩ := Option.map_eq_some_iff.mp h
      rw [ofHandle, ofHandle, howner]

end HandleStatus

namespace Ledger

variable {P Event : Type} {A : PositionArithmetic P} {g : Geometry} {l : Ledger}
  {s s' : State P Event}

/-! ### What the ledger says -/

theorem Agrees.getElem? (h : l.Agrees s) (place : ℕ) :
  l.handles[place]? = s.handles[place]?.map .ofHandle
  := by
  rw [h.handles, List.getElem?_map]

/-- A handle is live when the ledger says so. -/
theorem Agrees.live (h : l.Agrees s) (place : ℕ) :
  s.live place = l.live place
  := by
  rw [Ledger.live, h.getElem?, State.live, State.handleAt, Bool.eq_iff_iff, decide_eq_true_iff]
  cases s.handles[place]? with
  | none => simp
  | some handle => simp [HandleStatus.ofHandle_eq_live]

theorem Agrees.anyLive (h : l.Agrees s) :
  s.anyLive = l.anyLive
  := by
  rw [Ledger.anyLive, h.handles, State.anyLive, List.any_map, Bool.eq_iff_iff, List.any_eq_true,
    List.any_eq_true]
  simp [HandleStatus.ofHandle_eq_live]

theorem Agrees.holds (h : l.Agrees s) (place : ℕ) :
  (s.handleAt place).isSome = l.holds place
  := by
  rw [Ledger.holds, h.getElem?, State.handleAt]
  cases s.handles[place]? with
  | none => rfl
  | some handle =>
      cases handle with
      | none => rfl
      | some k =>
          have hne : HandleStatus.ofHandle (some k) ≠ .destroyed := by
            intro heq
            cases HandleStatus.ofHandle_eq_destroyed.mp heq
          simp [hne]

/-- The publication in progress is that of the innermost call. -/
theorem Agrees.running_eq (h : l.Agrees s) :
  l.running s.returned.length = s.calls.head?.map (·.path)
  := by
  rw [Ledger.running, ← List.head?_drop, h.running, List.head?_map]

theorem Agrees.isNone_running (h : l.Agrees s) :
  (l.running s.returned.length).isNone = s.calls.isEmpty
  := by
  rw [h.running_eq]
  cases s.calls with
  | nil => rfl
  | cons => rfl

theorem Agrees.applicable (h : l.Agrees s) (operation : Operation Event) :
  s.applicable operation = l.applicable operation
  := by
  cases operation with
  | makeProducer => rfl
  | moveHandle place => apply h.holds
  | destroyHandle place => apply h.holds
  | publishHandle place => apply h.holds
  | publish => rfl

/-- The rules are those of the ledger. -/
theorem Agrees.respects (h : l.Agrees s) (operation : Operation Event) :
  s.respects operation = l.respects s.returned.length operation
  := by
  cases operation with
  | makeProducer => rw [State.respects, Ledger.respects, h.anyLive, h.isNone_running]
  | moveHandle place => rw [State.respects, Ledger.respects, h.live, h.isNone_running]
  | destroyHandle place => rw [State.respects, Ledger.respects, h.live, h.isNone_running]
  | publishHandle place => rw [State.respects, Ledger.respects, h.live, h.isNone_running]
  | publish => rw [State.respects, Ledger.respects, h.anyLive, h.isNone_running]

/-- The state is the one the ledger expects. -/
theorem Agrees.expected (h : l.Agrees s) (hs : s.Inv) :
  s.producerState = l.expected s.returned.length s.pc
  := by
  rw [hs.state, Ledger.expected, h.running_eq, ← h.anyLive, State.expected, State.pc]
  cases hs.calls with
  | inl hnil => simp [hnil]
  | inr hsingle =>
      obtain ⟨c, hc, -⟩ := hsingle
      rw [hc]
      cases hpc : admitted c.pc with
      | false => simp [hpc]
      | true => simp [hpc]

/-! ### What the operations leave -/

/-- A call on a path in use leaves what became of the handles. -/
theorem map_ofHandle_after {c : Call P Event} {calls : List (Call P Event)}
    {p : Producer P Event} (hpath : s.InUse c.path)
    (hsame : (s.producer c.path c.pc).SameHandles p) :
  (s.after c calls p).handles.map HandleStatus.ofHandle = s.handles.map .ofHandle
  := by
  obtain ⟨path, pc⟩ := c
  cases path with
  | direct => rfl
  | handle place =>
      have hstatus := HandleStatus.ofHandle_congr hsame.owner
      obtain ⟨h, hplace, -⟩ := State.live_iff.mp hpath
      have hat : s.handles[place]? = some (some h) := Option.join_eq_some_iff.mp hplace
      apply List.ext_getElem?
      intro i
      rw [State.after, State.handlesAfter, List.map_set, List.getElem?_set]
      split
      case isTrue heq =>
        subst heq
        obtain ⟨hlt, -⟩ := List.getElem?_eq_some_iff.mp hat
        rw [List.length_map, if_pos hlt, List.getElem?_map, hat, hstatus]
        apply congrArg (some ∘ HandleStatus.ofHandle)
        apply hplace
      case isFalse => rfl

/-- A call that is the only one in progress, and has begun or taken a step. -/
theorem Agrees.after {c : Call P Event} {p : Producer P Event}
    (hhandles : l.handles = s.handles.map .ofHandle)
    (hbegan : l.publications.length = s.returned.length + 1)
    (hrunning : l.publications.drop s.returned.length = [c.path]) (hpath : s.InUse c.path)
    (hsame : (s.producer c.path c.pc).SameHandles p)
    (hanswers : (s.producer c.path c.pc).Answers p) :
  l.Agrees (s.after c [] p)
  := by
  have hmap : (s.after c [] p).handles.map HandleStatus.ofHandle = s.handles.map .ofHandle :=
    map_ofHandle_after hpath hsame
  cases hanswers with
  | inl hover =>
      obtain ⟨hpc, result, hreturned⟩ := hover
      have hlength : p.returned.length = s.returned.length + 1 := by
        rw [hreturned, List.length_append]
        rfl
      have hcalls : (s.after c [] p).calls = [] := by
        simp only [State.after, State.callsAfter, hpc]
      constructor
      · rw [hmap, hhandles]
      · rw [hcalls, hbegan, ← hlength]
        rfl
      · rw [hcalls]
        apply List.drop_eq_nil_of_le
        rw [hbegan, ← hlength]
        rfl
  | inr hon =>
      obtain ⟨hpc, hreturned⟩ := hon
      have hreturned' : (s.after c [] p).returned = s.returned := hreturned
      have hcalls : (s.after c [] p).calls = [{ path := c.path, pc := p.pc }] := by
        simp only [State.after, State.callsAfter]
      constructor
      · rw [hmap, hhandles]
      · rw [hcalls, hbegan, hreturned']
        rfl
      · rw [hcalls, hreturned', hrunning]
        rfl

/-- A publication on a path in use is issued. -/
theorem Agrees.tryPublishBatch {path : Path} (h : l.Agrees s) (hpath : s.InUse path)
    (hcalls : s.calls = []) (count : ℕ) (writer : Writer Event) :
  Agrees { l with publications := l.publications ++ [path] }
    (s.tryPublishBatch g path count writer)
  := by
  have hlength : l.publications.length = s.returned.length := by
    rw [h.began, hcalls]
    rfl
  rw [State.tryPublishBatch, hcalls]
  apply Agrees.after
  · apply h.handles
  · rw [List.length_append, hlength]
    rfl
  · rw [← hlength, List.drop_left]
  · apply hpath
  · apply Producer.sameHandles_tryPublishBatch
  · apply Producer.answers_tryPublishBatch

/-- Where only the handles change, the ledger is to be right about them. -/
theorem Agrees.of_handles {l' : Ledger} (h : l.Agrees s)
    (hhandles : l'.handles = s'.handles.map .ofHandle)
    (hpublications : l'.publications = l.publications) (hreturned : s'.returned = s.returned)
    (hcalls : s'.calls = s.calls) :
  l'.Agrees s'
  := by
  constructor
  · apply hhandles
  · rw [hpublications, hreturned, hcalls, h.began]
  · rw [hpublications, hreturned, hcalls, h.running]

/-- An operation leaves what the ledger records of it. -/
theorem Agrees.perform {operation : Operation Event} (h : l.Agrees s)
    (hrespects : s.respects operation = true)
    (hperform : s.perform g operation = some (.ok s')) :
  (l.issue operation).Agrees s'
  := by
  cases operation with
  | makeProducer =>
      have hmade := Option.some.inj hperform
      rw [State.makeProducer] at hmade
      split at hmade
      case isTrue =>
        obtain rfl := Except.ok.inj hmade
        apply h.of_handles
        · rw [issue, h.handles, List.map_append]
          rfl
        · rfl
        · rfl
        · rfl
      case isFalse => cases hmade
  | moveHandle place =>
      obtain ⟨handle, hplace, hmoved⟩ := Option.map_eq_some_iff.mp hperform
      have hat : s.handles[place]? = some (some handle) := Option.join_eq_some_iff.mp hplace
      rw [State.moveHandle_eq] at hmoved
      split at hmoved
      case isTrue =>
        obtain rfl := Except.ok.inj hmoved
        apply h.of_handles
        · rw [issue, h.getElem?, hat, h.handles, List.map_append, List.map_set]
          rfl
        · rfl
        · rfl
        · rfl
      case isFalse => cases hmoved
  | destroyHandle place =>
      obtain ⟨handle, -, hdestroyed⟩ := Option.map_eq_some_iff.mp hperform
      rw [State.destroyHandle] at hdestroyed
      split at hdestroyed
      case isTrue =>
        obtain rfl := Except.ok.inj hdestroyed
        apply h.of_handles
        · rw [issue, h.handles, List.map_set]
          rfl
        · rfl
        · rfl
        · rfl
      case isFalse => cases hdestroyed
  | publishHandle place count writer =>
      simp only [State.respects, Bool.and_eq_true, List.isEmpty_iff] at hrespects
      obtain ⟨hlive, hcalls⟩ := hrespects
      obtain ⟨handle, -, hpublished⟩ := Option.map_eq_some_iff.mp hperform
      rw [State.publishHandle] at hpublished
      split at hpublished
      case isTrue =>
        obtain rfl := Except.ok.inj hpublished
        apply h.tryPublishBatch _ hcalls
        apply hlive
      case isFalse => cases hpublished
  | publish count writer =>
      simp only [State.respects, Bool.and_eq_true, Bool.not_eq_true', List.isEmpty_iff]
        at hrespects
      obtain ⟨hlive, hcalls⟩ := hrespects
      have hpublished := Option.some.inj hperform
      rw [State.publish] at hpublished
      split at hpublished
      case isTrue =>
        obtain rfl := Except.ok.inj hpublished
        apply h.tryPublishBatch _ hcalls
        apply hlive
      case isFalse => cases hpublished

/-- The next step of a publication leaves what the ledger says. -/
theorem Agrees.resume {place : ℕ} (h : l.Agrees s) (hs : s.Inv)
    (hresume : s.resume A g place = some s') :
  l.Agrees s'
  := by
  rw [State.resume] at hresume
  cases hs.calls with
  | inl hnil =>
      rw [hnil] at hresume
      cases hresume
  | inr hsingle =>
      obtain ⟨c, hc, hpath⟩ := hsingle
      rw [hc] at hresume
      obtain ⟨p, hp, rfl⟩ := Option.map_eq_some_iff.mp hresume
      apply Agrees.after
      · apply h.handles
      · rw [h.began, hc]
        rfl
      · rw [h.running, hc]
        rfl
      · apply hpath
      · apply Producer.sameHandles_resume hp
      · apply Producer.answers_resume hp

/-- A step that respects the rules leaves what the ledger records of it. -/
theorem Agrees.step {a : Action Event} (h : l.Agrees s) (hs : s.Inv)
    (hobeys : State.obeys (.ok s) a = true) (hstep : s.step A g a = some (.ok s')) :
  (l.record a).Agrees s'
  := by
  cases a with
  | issue operation =>
      rw [State.step] at hstep
      split at hstep
      case isTrue => apply h.perform hobeys hstep
      case isFalse => cases hstep
  | resume place =>
      obtain ⟨t, ht, heq⟩ := Option.map_eq_some_iff.mp hstep
      obtain rfl := Except.ok.inj heq
      apply h.resume hs ht
  | consumer i action =>
      obtain ⟨c, -, heq⟩ := Option.map_eq_some_iff.mp hstep
      obtain rfl := Except.ok.inj heq
      exact ⟨h.handles, h.began, h.running⟩

end Ledger

/-! ### Runs -/

namespace Ledger

variable {P Event : Type} [Inhabited Event] {A : PositionArithmetic P} {g : Geometry}
  {initialPosition : P} {l : Ledger} {outcome : Except Assertion (State P Event)}

/-- As long as the operations respect the rules of the ledger, no assertion fails and the ledger
is right. -/
theorem agrees_of_reachable (h : (ruled Event A g initialPosition).Reachable (l, outcome)) :
  ∃ s, outcome = .ok s ∧ l.Agrees s ∧ s.Inv ∧
    ((build Event A g initialPosition).restrict State.obeys).Reachable outcome
  := by
  apply h.invariant (I := fun t => ∃ s, t.2 = .ok s ∧ t.1.Agrees s ∧ s.Inv ∧
    ((build Event A g initialPosition).restrict State.obeys).Reachable t.2)
  · use State.init g initialPosition, rfl
    refine ⟨⟨rfl, rfl, rfl⟩, State.inv_init g initialPosition, ?_⟩
    apply TransitionSystem.Reachable.initial
  · rintro a ⟨l, _⟩ ⟨l', outcome'⟩ ⟨s, rfl, hagrees, hs, hreachable⟩ hstep
    obtain ⟨hobeys, hstep⟩ := TransitionSystem.restrict_step.mp hstep
    obtain ⟨hstep, hrecord⟩ := TransitionSystem.recording_step.mp hstep
    have hobeys' : State.obeys (.ok s) a = true := by
      cases a with
      | issue operation => apply (hagrees.respects operation).trans hobeys
      | resume => rfl
      | consumer => rfl
    obtain ⟨s', rfl, hs'⟩ := hs.step hobeys' hstep
    obtain rfl := hrecord
    use s', rfl, hagrees.step hs hobeys' hstep, hs'
    apply hreachable.step (TransitionSystem.restrict_step.mpr ⟨hobeys', hstep⟩)

end Ledger

namespace State

variable {P Event : Type} [Inhabited Event] {A : PositionArithmetic P} {g : Geometry}
  {initialPosition : P} {l : Ledger} {outcome : Except Assertion (State P Event)}

/-- As long as the operations respect the rules no assertion fails, every operation leaves of
the handles what the ledger says, the disruptor runs the machine with the handle that is live,
and the state is what is expected; then an operation passes its assertion when it respects the
rules too, and fails it when it breaks one. -/
theorem assertions_exact (h : (ruled Event A g initialPosition).Reachable (l, outcome)) :
  ∃ s, outcome = .ok s ∧
    l.handles = s.handles.map .ofHandle ∧
    (machine Event A g initialPosition).Reachable s.toMachine ∧
    (∀ handle, s.toMachine.producer.session = some handle ↔
      ∃ place, l.live place = true ∧ s.handleAt place = some handle) ∧
    s.producerState = l.expected s.returned.length s.pc ∧
    ∀ operation, s.issuing = true → l.applicable operation = true →
      (l.respects s.returned.length operation = true →
        ∃ s', (build Event A g initialPosition).step (.issue operation) outcome = some (.ok s')) ∧
      (l.respects s.returned.length operation = false →
        (build Event A g initialPosition).step (.issue operation) outcome =
          some (.error operation.assertion))
  := by
  obtain ⟨s, rfl, hagrees, hs, hreachable⟩ := Ledger.agrees_of_reachable h
  use s, rfl, hagrees.handles, reachable_toMachine hreachable
  constructor
  · intro handle
    apply (session_iff hs).trans
    constructor
    · rintro ⟨howner, place, hplace⟩
      use place
      rw [← hagrees.live]
      use (live_eq_owner hplace).trans howner
    · rintro ⟨place, hlive, hplace⟩
      rw [← hagrees.live] at hlive
      use (live_eq_owner hplace).symm.trans hlive, place
  use hagrees.expected hs
  intro operation hissuing happlicable
  have hstep : (build Event A g initialPosition).step (.issue operation) (.ok s) =
      s.perform g operation := if_pos hissuing
  rw [hstep, ← hagrees.respects]
  rw [← hagrees.applicable] at happlicable
  constructor
  · intro hrespects
    obtain ⟨s', hs', -⟩ := hs.perform hissuing happlicable hrespects
    use s'
  · intro hbreaks
    apply hs.perform_error hissuing happlicable hbreaks

/-- A handle publishes and is destroyed, the disruptor publishes, and a second handle is made and
moved. Inside its writer the handle it was moved from may be destroyed, the handle itself may
not. -/
theorem assertions_exact_insideWriter :
  ∃ (l : Ledger) (s : State SequenceType ℕ),
    (ruled ℕ Geometry.pair.wrapping Geometry.pair 0).Reachable (l, .ok s) ∧
    l.handles = [.destroyed, .destroyed, .live] ∧ s.returned = [true, true, false] ∧
    s.handles.map .ofHandle = l.handles ∧
    s.producerState = .handlePublishing ∧
    (build ℕ Geometry.pair.wrapping Geometry.pair 0).step (.issue (.destroyHandle 2)) (.ok s) =
      some (.error .destroy)
  := by
  have hrun : ∃ (l : Ledger) (s : State SequenceType ℕ),
      (ruled ℕ Geometry.pair.wrapping Geometry.pair 0).run
        [.issue .makeProducer, .issue (.publishHandle 0 1 fun _ _ => 5), .resume 0, .resume 0,
          .issue (.destroyHandle 0), .issue (.publish 0 fun _ _ => 6),
          .issue (.publish 3 fun _ _ => 6), .issue .makeProducer, .issue (.moveHandle 1),
          .issue (.publishHandle 2 1 fun _ _ => 7), .issue (.destroyHandle 1)]
        (ruled ℕ Geometry.pair.wrapping Geometry.pair 0).initial = some (l, .ok s) ∧
      l.handles = [.destroyed, .destroyed, .live] ∧ s.returned = [true, true, false] ∧
      l.expected s.returned.length s.pc = .handlePublishing ∧ s.issuing = true ∧
      l.applicable (.destroyHandle 2 : Operation ℕ) = true ∧
      l.respects s.returned.length (.destroyHandle 2 : Operation ℕ) = false := by
    refine ⟨_, _, rfl, rfl, rfl, rfl, rfl, rfl, rfl⟩
  obtain ⟨l, s, hrun, hledger, hreturned, hexpected, hissuing, happlicable, hbreaks⟩ := hrun
  have hs : (ruled ℕ Geometry.pair.wrapping Geometry.pair 0).Reachable (l, .ok s) := ⟨_, hrun⟩
  use l, s, hs, hledger, hreturned
  obtain ⟨t, ht, hhandles, -, -, hstate, hoperation⟩ := assertions_exact hs
  obtain rfl := Except.ok.inj ht
  use hhandles.symm, hstate.trans hexpected
  apply (hoperation (.destroyHandle 2) hissuing happlicable).2 hbreaks

end State

end Debug

end Disruptor
