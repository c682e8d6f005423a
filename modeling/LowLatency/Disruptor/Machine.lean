import LowLatency.Disruptor.Ring
import LowLatency.Library.Location
import LowLatency.Library.Transition

/-!
# The disruptor as a machine of interleaved steps

One producer and any number of consumers take turns. A step is one access to memory the
threads share, together with what the thread computes privately up to its next access:
a load of a cursor, a call of the writer on a slot, a call of the handler on a slot, a
store of a cursor. A load of a cursor another thread stores may be stale, in the way of
`Location.load`.

Every piece of memory has one writer, so the state is the state of the producer, which
holds the slots and the published cursor, together with the state of each consumer,
which holds its cursor. The steps of one only read the other.

The machine is parameterised by the arithmetic of positions: the code runs it on 64-bit
positions, `Geometry.wrapping`.
-/

namespace Disruptor

/-! ### The producer -/

/-- The producer's private position, capacity cache and blocker hint. The disruptor has
one such record, and a producer handle has its own. -/
structure ProducerState (P : Type) where
  nextToPublish : P
  availableBeforeRescan : ℕ
  blockingConsumer : ℕ

/-- The private state after a batch of `count` events from `first` is written. -/
def ProducerState.take {P : Type} (A : PositionArithmetic P) (state : ProducerState P)
    (first : P) (count : ℕ) : ProducerState P :=
  { state with
    nextToPublish := A.advance first count
    availableBeforeRescan := state.availableBeforeRescan - count }

/-- The private state after a full scan found the lag of consumer `index` the
greatest. -/
def ProducerState.rescanned {P : Type} (g : Geometry) (state : ProducerState P)
    (greatestLag index : ℕ) : ProducerState P :=
  { state with
    blockingConsumer := index
    availableBeforeRescan := g.capacity - greatestLag }

/-- The private state after consumer `index` was found lagging. -/
def ProducerState.blockedBy {P : Type} (state : ProducerState P) (index : ℕ) :
    ProducerState P :=
  { state with blockingConsumer := index }

/-- A producer handle; `owner` tells whether its `owner_` is not null. -/
structure ProducerHandle (P : Type) where
  owner : Bool
  state : ProducerState P

/-- The move constructor: the handle moved from, and the new one. -/
def ProducerHandle.move {P : Type} (h : ProducerHandle P) :
    ProducerHandle P × ProducerHandle P :=
  ({ h with owner := false }, h)

/-- What destroying a handle leaves in the members of its owner. -/
def ProducerHandle.synchronizeOwnerState {P : Type} (h : ProducerHandle P)
    (owner : ProducerState P) : ProducerState P :=
  if h.owner then h.state else owner

/-- A writer, called with the index in its batch on the event in the slot. -/
abbrev Writer (Event : Type) : Type := ℕ → Event → Event

/-- Where the producer stands in a publication of `count` events. -/
inductive ProducerPc (P Event : Type) where
  | idle
  /-- In `refresh_available_capacity`, before the load of the blocker's cursor. -/
  | loadBlocker (count : ℕ) (writer : Writer Event)
  /-- In `refresh_available_capacity`, at the head of the loop over `index`. -/
  | scan (count : ℕ) (writer : Writer Event) (index greatestLag greatestLagIndex : ℕ)
  /-- Before the call of the writer on `index`. -/
  | write (count : ℕ) (writer : Writer Event) (first : P) (index : ℕ)
  /-- Before the store of the published cursor. -/
  | store (count : ℕ)

/-- What the producer owns: the slots, the published cursor and its private state. The
handle of the current session, if any, is `session`. Of the cursor of consumer `i` the
producer has last read the value at place `views i`. The last three fields record the
run: the events the writers have left in the slots, the sizes of the accepted batches,
and what the publications have returned. -/
structure Producer (P Event : Type) where
  events : ℕ → Event
  published : Location P
  owner : ProducerState P
  session : Option (ProducerHandle P)
  movedFrom : List (ProducerHandle P)
  pc : ProducerPc P Event
  views : ℕ → ℕ
  written : List Event
  accepted : List ℕ
  returned : List Bool

/-- What the producer may do. An idle producer publishes directly, opens a session,
publishes through the handle of the session, or moves or destroys a handle. A producer
inside a publication resumes it; a load reads the value at place `place`. -/
inductive ProducerAction (Event : Type) where
  | publish (count : ℕ) (writer : Writer Event)
  | makeProducer
  | publishHandle (count : ℕ) (writer : Writer Event)
  | moveHandle
  | destroyHandle
  | destroyMovedFrom (place : ℕ)
  | resume (place : ℕ)

namespace Producer

variable {P Event : Type} (A : PositionArithmetic P) (g : Geometry)

/-- The private state the publication path in use works on: that of the handle while a
session is open, and the members of the disruptor otherwise. -/
def state (p : Producer P Event) : ProducerState P :=
  match p.session with
  | none => p.owner
  | some h => h.state

/-- The producer with the private state in use set. -/
def setState (p : Producer P Event) (state : ProducerState P) : Producer P Event :=
  { p with
    owner := if p.session.isSome then p.owner else state
    session := p.session.map fun h => { h with state := state } }

/-- How the publication path in use walks over the slots of a batch. -/
def traversal (p : Producer P Event) : Traversal :=
  if p.session.isSome then .twoSpan else .masked

/-- The producer at another place. -/
def goto (p : Producer P Event) (pc : ProducerPc P Event) : Producer P Event :=
  { p with pc := pc }

/-- The producer after a publication returns. -/
def finish (p : Producer P Event) (result : Bool) : Producer P Event :=
  { p with pc := .idle, returned := p.returned ++ [result] }

/-- The producer after a batch is admitted. -/
def accept (p : Producer P Event) (count : ℕ) (writer : Writer Event) : Producer P Event :=
  { p with
    pc := .write count writer p.state.nextToPublish 0
    accepted := p.accepted ++ [count] }

/-- `try_publish_batch`, up to the first access. -/
def tryPublishBatch (p : Producer P Event) (count : ℕ) (writer : Writer Event) :
    Producer P Event :=
  if count = 0 then p.finish true
  else if count > g.capacity then p.finish false
  else if count > p.state.availableBeforeRescan then p.goto (.loadBlocker count writer)
  else p.accept count writer

/-- The producer after it loads the value at place `place` of the cursor of consumer
`i`. -/
def observe (p : Producer P Event) (i place : ℕ) : Producer P Event :=
  { p with views := Function.update p.views i place }

/-- The load of the blocker's cursor in `refresh_available_capacity`. -/
def loadBlocker (p : Producer P Event) (count : ℕ) (writer : Writer Event) (place : ℕ)
    (position : P) : Producer P Event :=
  let blocker := p.state.blockingConsumer
  let greatestLag := A.distance p.state.nextToPublish position
  let p := p.observe blocker place
  if greatestLag > g.capacity - count then p.finish false
  else p.goto (.scan count writer 0 greatestLag blocker)

/-- The load of the cursor of consumer `index` in `refresh_available_capacity`. -/
def loadScanned (p : Producer P Event) (count : ℕ) (writer : Writer Event)
    (index greatestLag greatestLagIndex place : ℕ) (position : P) : Producer P Event :=
  let lag := A.distance p.state.nextToPublish position
  let p := p.observe index place
  if lag > g.capacity - count then
    (p.setState (p.state.blockedBy index)).finish false
  else if lag > greatestLag then p.goto (.scan count writer (index + 1) lag index)
  else p.goto (.scan count writer (index + 1) greatestLag greatestLagIndex)

/-- The end of `refresh_available_capacity`, and the admission it grants. -/
def endScan (p : Producer P Event) (count : ℕ) (writer : Writer Event)
    (greatestLag greatestLagIndex : ℕ) : Producer P Event :=
  (p.setState (p.state.rescanned g greatestLag greatestLagIndex)).accept count writer

/-- The producer after a writer leaves `event` in a slot. -/
def put (p : Producer P Event) (slot : ℕ) (event : Event) : Producer P Event :=
  { p with events := Function.update p.events slot event, written := p.written ++ [event] }

/-- The call of the writer on the slot at `index`. After the last call the private
position and the capacity cache advance by the batch. -/
def write (p : Producer P Event) (count : ℕ) (writer : Writer Event) (first : P)
    (index : ℕ) : Producer P Event :=
  let slot := g.subscript A p.traversal first count index
  let p := p.put slot (writer index (p.events slot))
  if index + 1 < count then p.goto (.write count writer first (index + 1))
  else (p.setState (p.state.take A first count)).goto (.store count)

/-- The store of the published cursor. -/
def store (p : Producer P Event) : Producer P Event :=
  { p with published := p.published.store p.state.nextToPublish }.finish true

/-- The next step of a publication, where the cursors of the consumers are
`released`. -/
def resume (released : ℕ → Location P) (p : Producer P Event) (place : ℕ) :
    Option (Producer P Event) :=
  match p.pc with
  | .idle => none
  | .loadBlocker count writer =>
      let blocker := p.state.blockingConsumer
      ((released blocker).load (p.views blocker) place).map
        (p.loadBlocker A g count writer place)
  | .scan count writer index greatestLag greatestLagIndex =>
      if index < g.consumerCount then
        if index = p.state.blockingConsumer then
          some (p.goto (.scan count writer (index + 1) greatestLag greatestLagIndex))
        else
          ((released index).load (p.views index) place).map
            (p.loadScanned A g count writer index greatestLag greatestLagIndex place)
      else some (p.endScan g count writer greatestLag greatestLagIndex)
  | .write count writer first index => some (p.write A g count writer first index)
  | .store _ => some p.store

/-- The step of the producer along an action. -/
def step (released : ℕ → Location P) (p : Producer P Event) :
    ProducerAction Event → Option (Producer P Event)
  | .resume place => p.resume A g released place
  | .publish count writer =>
      match p.pc, p.session with
      | .idle, none => some (p.tryPublishBatch g count writer)
      | _, _ => none
  | .makeProducer =>
      match p.pc, p.session with
      | .idle, none => some { p with session := some { owner := true, state := p.owner } }
      | _, _ => none
  | .publishHandle count writer =>
      match p.pc, p.session with
      | .idle, some _ => some (p.tryPublishBatch g count writer)
      | _, _ => none
  | .moveHandle =>
      match p.pc, p.session with
      | .idle, some h =>
          some { p with session := some h.move.2, movedFrom := p.movedFrom ++ [h.move.1] }
      | _, _ => none
  | .destroyHandle =>
      match p.pc, p.session with
      | .idle, some h => some { p with session := none, owner := h.synchronizeOwnerState p.owner }
      | _, _ => none
  | .destroyMovedFrom place =>
      match p.pc, p.movedFrom[place]? with
      | .idle, some h =>
          some { p with
            movedFrom := p.movedFrom.eraseIdx place
            owner := h.synchronizeOwnerState p.owner }
      | _, _ => none

end Producer

/-! ### The consumers -/

/-- A consumer handle. -/
structure ConsumerHandle (P : Type) where
  nextPosition : P
  cachedPublishedPosition : P

/-- The constructor of a consumer handle, where the consumer has released `position`. -/
def ConsumerHandle.make {P : Type} (position : P) : ConsumerHandle P :=
  { nextPosition := position, cachedPublishedPosition := position }

/-- The move constructor of a consumer handle. -/
def ConsumerHandle.move {P : Type} (h : ConsumerHandle P) : ConsumerHandle P :=
  { nextPosition := h.nextPosition, cachedPublishedPosition := h.cachedPublishedPosition }

/-- The handle after it caches the publication boundary it has loaded. -/
def ConsumerHandle.cache {P : Type} (h : ConsumerHandle P) (available : P) :
    ConsumerHandle P :=
  { h with cachedPublishedPosition := available }

/-- The handle after it has handled `count` events. -/
def ConsumerHandle.advance {P : Type} (A : PositionArithmetic P) (h : ConsumerHandle P)
    (count : ℕ) : ConsumerHandle P :=
  { h with nextPosition := A.advance h.nextPosition count }

/-- Where a consumer stands in a call of `consume_available`. -/
inductive ConsumerPc (P : Type) where
  | idle
  /-- Before the load of its own cursor, in an indexed call. -/
  | loadCursor (maxCount : ℕ)
  /-- Before the load of the published cursor. -/
  | loadPublished (first : P) (maxCount : ℕ)
  /-- Before the call of the handler on `index`. -/
  | handle (first : P) (count index : ℕ)
  /-- The handler is running on `index`. -/
  | running (first : P) (count index : ℕ)
  /-- Before the store of its cursor. -/
  | store (first : P) (count : ℕ)

/-- What a consumer owns: its cursor and its private state. Of the published cursor it
has last read the value at place `view`. The last two fields record the run: the events
and sequences the handler has been called with, and what the calls have returned. -/
structure Consumer (P Event : Type) where
  released : Location P
  handle : Option (ConsumerHandle P)
  pc : ConsumerPc P
  view : ℕ
  handled : List (Event × P)
  returned : List ℕ

/-- What a consumer may do. An idle consumer makes an indexed call, or a call through its
handle, or makes, moves or discards its handle. A consumer inside a call resumes it; a
load reads the value at place `place`. -/
inductive ConsumerAction where
  | consume (maxCount : ℕ)
  | makeConsumer
  | consumeHandle (maxCount : ℕ)
  | moveHandle
  | discardHandle
  | resume (place : ℕ)

namespace Consumer

variable {P Event : Type} (A : PositionArithmetic P) (g : Geometry)

/-- How the consumption path in use walks over the slots of a batch. -/
def traversal (c : Consumer P Event) : Traversal :=
  if c.handle.isSome then .twoSpan else .masked

/-- The consumer at another place. -/
def goto (c : Consumer P Event) (pc : ConsumerPc P) : Consumer P Event :=
  { c with pc := pc }

/-- The consumer after a call returns. -/
def finish (c : Consumer P Event) (count : ℕ) : Consumer P Event :=
  { c with pc := .idle, returned := c.returned ++ [count] }

/-- The consumer with `availableCount` events from `first` available to it, at least
one, of which it takes at most `maxCount`. -/
def begin (c : Consumer P Event) (first : P) (availableCount maxCount : ℕ) :
    Consumer P Event :=
  let count := if availableCount < maxCount then availableCount else maxCount
  c.goto (.handle first count 0)

/-- The load of the published cursor. A handle caches what it loads. -/
def loadPublished (c : Consumer P Event) (first : P) (maxCount place : ℕ) (available : P) :
    Consumer P Event :=
  let c : Consumer P Event :=
    { c with view := place, handle := c.handle.map (·.cache available) }
  let availableCount := A.distance available first
  if availableCount = 0 then c.finish 0 else c.begin first availableCount maxCount

/-- The call of the handler on the event in the slot at `index`. -/
def enter (c : Consumer P Event) (events : ℕ → Event) (first : P) (count index : ℕ) :
    Consumer P Event :=
  let slot := g.subscript A c.traversal first count index
  { c with
    pc := .running first count index
    handled := c.handled ++ [(events slot, A.advance first index)] }

/-- The return of the handler from `index`. After the last return the position of the
handle advances by the batch. -/
def leave (c : Consumer P Event) (first : P) (count index : ℕ) : Consumer P Event :=
  if index + 1 < count then c.goto (.handle first count (index + 1))
  else
    { c with
      pc := .store first count
      handle := c.handle.map (·.advance A count) }

/-- The store of the cursor. -/
def store (c : Consumer P Event) (first : P) (count : ℕ) : Consumer P Event :=
  let position :=
    match c.handle with
    | none => A.advance first count
    | some h => h.nextPosition
  { c with released := c.released.store position }.finish count

/-- The next step of a call, where the slots are `events` and the published cursor is
`published`. -/
def resume (events : ℕ → Event) (published : Location P) (c : Consumer P Event)
    (place : ℕ) : Option (Consumer P Event) :=
  match c.pc with
  | .idle => none
  | .loadCursor maxCount => some (c.goto (.loadPublished c.released.current maxCount))
  | .loadPublished first maxCount =>
      (published.load c.view place).map (c.loadPublished A first maxCount place)
  | .handle first count index => some (c.enter A g events first count index)
  | .running first count index => some (c.leave A first count index)
  | .store first count => some (c.store A first count)

/-- The step of consumer `i` along an action. -/
def step (events : ℕ → Event) (published : Location P) (i : ℕ) (c : Consumer P Event) :
    ConsumerAction → Option (Consumer P Event)
  | .resume place => c.resume A g events published place
  | .consume maxCount =>
      match c.pc, c.handle with
      | .idle, none =>
          if i ≥ g.consumerCount ∨ maxCount = 0 then some (c.finish 0)
          else some (c.goto (.loadCursor maxCount))
      | _, _ => none
  | .makeConsumer =>
      match c.pc, c.handle with
      | .idle, none =>
          if i < g.consumerCount then
            some { c with handle := some (ConsumerHandle.make c.released.current) }
          else none
      | _, _ => none
  | .consumeHandle maxCount =>
      match c.pc, c.handle with
      | .idle, some h =>
          let availableCount := A.distance h.cachedPublishedPosition h.nextPosition
          if maxCount = 0 then some (c.finish 0)
          else if availableCount = 0 then
            some (c.goto (.loadPublished h.nextPosition maxCount))
          else some (c.begin h.nextPosition availableCount maxCount)
      | _, _ => none
  | .moveHandle =>
      match c.pc, c.handle with
      | .idle, some h => some { c with handle := some h.move }
      | _, _ => none
  | .discardHandle =>
      match c.pc, c.handle with
      | .idle, some _ => some { c with handle := none }
      | _, _ => none

end Consumer

/-! ### The machine -/

/-- The state of the producer and of the consumers. -/
structure State (P Event : Type) where
  producer : Producer P Event
  consumer : ℕ → Consumer P Event

/-- A step of the producer, or of consumer `i`. -/
inductive Action (Event : Type) where
  | producer (action : ProducerAction Event)
  | consumer (i : ℕ) (action : ConsumerAction)

namespace State

variable {P Event : Type}

/-- The cursors of the consumers. -/
def released (s : State P Event) (i : ℕ) : Location P :=
  (s.consumer i).released

/-- The constructor `single_producer_disruptor(initial_position)`. -/
def init [Inhabited Event] (g : Geometry) (initialPosition : P) : State P Event where
  producer :=
    { events := fun _ => default
      published := Location.init initialPosition
      owner :=
        { nextToPublish := initialPosition
          availableBeforeRescan := g.capacity
          blockingConsumer := 0 }
      session := none
      movedFrom := []
      pc := .idle
      views := fun _ => 0
      written := []
      accepted := []
      returned := [] }
  consumer _ :=
    { released := Location.init initialPosition
      handle := none
      pc := .idle
      view := 0
      handled := []
      returned := [] }

/-- The step along an action. -/
def step (A : PositionArithmetic P) (g : Geometry) (s : State P Event) :
    Action Event → Option (State P Event)
  | .producer action =>
      (s.producer.step A g s.released action).map fun p => { s with producer := p }
  | .consumer i action =>
      ((s.consumer i).step A g s.producer.events s.producer.published i action).map fun c =>
        { s with consumer := Function.update s.consumer i c }

end State

/-- The machine, with the positions of `A` and the first position `initialPosition`. -/
def machine {P : Type} (Event : Type) [Inhabited Event] (A : PositionArithmetic P)
    (g : Geometry) (initialPosition : P) :
    TransitionSystem (State P Event) (Action Event) where
  initial := State.init g initialPosition
  step action s := s.step A g action

end Disruptor
