import LowLatency.Disruptor.Machine

/-!
# The debug build

Debug builds keep `producer_state_` and assert the exclusive-publication rules on it. The
producer thread may issue any operation, at top level or from inside a writer that is running:
nothing but an assertion refuses it, and an assertion that fails ends the program.

The publications themselves take the steps of the machine. Between two steps of a publication
the consumers may take theirs.
-/

namespace Disruptor

namespace Debug

/-- `producer_debug_state` -/
inductive ProducerDebugState where
  | idle
  | handle
  | handlePublishing
  | directPublishing
  deriving DecidableEq

/-- The assertions of the producer. -/
inductive Assertion where
  /-- In the move constructor of a handle. -/
  | move
  /-- In the destructor of a handle. -/
  | destroy
  /-- In the `try_publish_batch` of a handle. -/
  | publishHandle
  | makeProducer
  /-- In the `try_publish_batch` of the disruptor. -/
  | publish

/-- The text of an assertion. -/
def Assertion.text : Assertion → String
  | .move => "a producer handle cannot move from a writer callback"
  | .destroy => "a producer handle cannot be destroyed by its writer"
  | .publishHandle => "a producer writer cannot re-enter publication"
  | .makeProducer => "only one producer handle may be live"
  | .publish => "publication cannot re-enter or mix with a producer handle"

/-- A publication path: that of the disruptor, or that of the handle at a place. -/
inductive Path where
  | direct
  | handle (place : ℕ)

/-- The state while the writers of a publication run. -/
def Path.publishing : Path → ProducerDebugState
  | .direct => .directPublishing
  | .handle _ => .handlePublishing

/-- The state after a publication has published its batch. -/
def Path.published : Path → ProducerDebugState
  | .direct => .idle
  | .handle _ => .handle

/-- A call of `try_publish_batch` in progress. -/
structure Call (P Event : Type) where
  path : Path
  pc : ProducerPc P Event

/-- What the call has admitted is to be written or published. -/
def admitted {P Event : Type} : ProducerPc P Event → Bool
  | .write _ _ _ _ => true
  | .store _ => true
  | _ => false

/-- What a step of a publication on `path`, from one place to another, stores in
`producer_state_`: it is stored when a batch is admitted and when it is published. -/
def Path.mark {P Event : Type} (path : Path) (pc pc' : ProducerPc P Event)
    (producerState : ProducerDebugState) : ProducerDebugState :=
  match admitted pc, admitted pc' with
  | false, true => path.publishing
  | true, false => path.published
  | _, _ => producerState

/-- The disruptor in a debug build, with the handles at their places and the calls of
`try_publish_batch` in progress, the innermost first. At the place of a handle that is
destroyed there is none. -/
structure State (P Event : Type) where
  producerState : ProducerDebugState
  owner : ProducerState P
  handles : List (Option (ProducerHandle P))
  calls : List (Call P Event)
  events : ℕ → Event
  published : Location P
  views : ℕ → ℕ
  written : List Event
  accepted : List ℕ
  returned : List Bool
  consumer : ℕ → Consumer P Event

/-- What the producer thread may issue. -/
inductive Operation (Event : Type) where
  | makeProducer
  | moveHandle (place : ℕ)
  | destroyHandle (place : ℕ)
  | publishHandle (place count : ℕ) (writer : Writer Event)
  | publish (count : ℕ) (writer : Writer Event)

/-- The producer thread issues an operation, or resumes the innermost call, or consumer `i`
takes a step. Where a writer is running, the call resumes when it returns. -/
inductive Action (Event : Type) where
  | issue (operation : Operation Event)
  | resume (place : ℕ)
  | consumer (i : ℕ) (action : ConsumerAction)

namespace State

variable {P Event : Type} (A : PositionArithmetic P) (g : Geometry)

/-- The handle at a place. -/
def handleAt (s : State P Event) (place : ℕ) : Option (ProducerHandle P) :=
  s.handles[place]?.join

/-- The producer as a call on `path` works on it, at `pc`. -/
def producer (s : State P Event) (path : Path) (pc : ProducerPc P Event) : Producer P Event where
  events := s.events
  published := s.published
  owner := s.owner
  session :=
    match path with
    | .direct => none
    | .handle place => s.handleAt place
  movedFrom := []
  pc := pc
  views := s.views
  written := s.written
  accepted := s.accepted
  returned := s.returned

/-- The handles after a step of a call on `path`, which leaves the producer at `p`. -/
def handlesAfter (s : State P Event) (path : Path) (p : Producer P Event) :
    List (Option (ProducerHandle P)) :=
  match path with
  | .direct => s.handles
  | .handle place => s.handles.set place p.session

/-- The calls after a step of a call on `path`, called from within `calls`, which leaves the
producer at `p`. -/
def callsAfter (path : Path) (calls : List (Call P Event)) (p : Producer P Event) :
    List (Call P Event) :=
  match p.pc with
  | .idle => calls
  | pc => { path := path, pc := pc } :: calls

/-- The state after a step of the call `c`, called from within `calls`, which leaves the
producer at `p`. -/
def after (s : State P Event) (c : Call P Event) (calls : List (Call P Event))
    (p : Producer P Event) : State P Event :=
  { s with
    producerState := c.path.mark c.pc p.pc s.producerState
    owner := p.owner
    handles := s.handlesAfter c.path p
    calls := callsAfter c.path calls p
    events := p.events
    published := p.published
    views := p.views
    written := p.written
    accepted := p.accepted
    returned := p.returned }

/-! ### The operations -/

/-- `make_producer` -/
def makeProducer (s : State P Event) : Except Assertion (State P Event) :=
  if s.producerState = .idle then
    .ok { s with
      producerState := .handle
      handles := s.handles ++ [some { owner := true, state := s.owner }] }
  else .error .makeProducer

/-- The move constructor of a handle, from the handle `h` at `place`. -/
def moveHandle (s : State P Event) (place : ℕ) (h : ProducerHandle P) :
    Except Assertion (State P Event) :=
  let (other, handle) := h.move
  if handle.owner = false ∨ s.producerState = .handle then
    .ok { s with handles := s.handles.set place (some other) ++ [some handle] }
  else .error .move

/-- The destructor of the handle `h` at `place`. -/
def destroyHandle (s : State P Event) (place : ℕ) (h : ProducerHandle P) :
    Except Assertion (State P Event) :=
  if h.owner = false ∨ s.producerState = .handle then
    .ok { s with
      producerState := if h.owner then .idle else s.producerState
      owner := h.synchronizeOwnerState s.owner
      handles := s.handles.set place none }
  else .error .destroy

/-- `try_publish_batch` on `path` after its assertion, up to the first access. -/
def tryPublishBatch (s : State P Event) (path : Path) (count : ℕ) (writer : Writer Event) :
    State P Event :=
  s.after { path := path, pc := .idle } s.calls
    ((s.producer path .idle).tryPublishBatch g count writer)

/-- The `try_publish_batch` of the handle `h` at `place`. -/
def publishHandle (s : State P Event) (place : ℕ) (h : ProducerHandle P) (count : ℕ)
    (writer : Writer Event) : Except Assertion (State P Event) :=
  if h.owner = true ∧ s.producerState = .handle then
    .ok (s.tryPublishBatch g (.handle place) count writer)
  else .error .publishHandle

/-- The `try_publish_batch` of the disruptor. -/
def publish (s : State P Event) (count : ℕ) (writer : Writer Event) :
    Except Assertion (State P Event) :=
  if s.producerState = .idle then .ok (s.tryPublishBatch g .direct count writer)
  else .error .publish

/-- The producer thread is at top level or inside a writer. -/
def issuing (s : State P Event) : Bool :=
  match s.calls with
  | [] => true
  | c :: _ =>
      match c.pc with
      | .write _ _ _ _ => true
      | _ => false

/-- What comes of an operation. An operation of a handle needs the handle to exist. -/
def perform (s : State P Event) : Operation Event → Option (Except Assertion (State P Event))
  | .makeProducer => some s.makeProducer
  | .moveHandle place => (s.handleAt place).map (s.moveHandle place)
  | .destroyHandle place => (s.handleAt place).map (s.destroyHandle place)
  | .publishHandle place count writer =>
      (s.handleAt place).map fun h => s.publishHandle g place h count writer
  | .publish count writer => some (s.publish g count writer)

/-! ### The program -/

/-- The cursors of the consumers. -/
def released (s : State P Event) (i : ℕ) : Location P :=
  (s.consumer i).released

/-- The next step of the innermost call. -/
def resume (s : State P Event) (place : ℕ) : Option (State P Event) :=
  match s.calls with
  | [] => none
  | c :: calls =>
      ((s.producer c.path c.pc).resume A g s.released place).map (s.after c calls)

/-- The step along an action. -/
def step (s : State P Event) : Action Event → Option (Except Assertion (State P Event))
  | .issue operation => if s.issuing then s.perform g operation else none
  | .resume place => (s.resume A g place).map .ok
  | .consumer i action =>
      ((s.consumer i).step A g s.events s.published i action).map fun c =>
        .ok { s with consumer := Function.update s.consumer i c }

/-- The constructor `single_producer_disruptor(initial_position)`. -/
def init [Inhabited Event] (g : Geometry) (initialPosition : P) : State P Event where
  producerState := .idle
  owner :=
    { nextToPublish := initialPosition
      availableBeforeRescan := g.capacity
      blockingConsumer := 0 }
  handles := []
  calls := []
  events _ := default
  published := Location.init initialPosition
  views _ := 0
  written := []
  accepted := []
  returned := []
  consumer _ :=
    { released := Location.init initialPosition
      handle := none
      pc := .idle
      view := 0
      handled := []
      returned := [] }

end State

/-- The debug build. A failed assertion ends the program. -/
def build {P : Type} (Event : Type) [Inhabited Event] (A : PositionArithmetic P) (g : Geometry)
    (initialPosition : P) :
    TransitionSystem (Except Assertion (State P Event)) (Action Event) where
  initial := .ok (State.init g initialPosition)
  step action
    | .ok s => s.step A g action
    | .error _ => none

end Debug

end Disruptor
