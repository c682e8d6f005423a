import LowLatency.Disruptor.Invariant
import Mathlib.Data.BitVec

/-!
# Rollover

The machine on 64-bit positions is in lock step with the machine on unbounded positions:
taking every position of a reachable state modulo `2 ^ 64` commutes with the steps. The
invariant bounds every distance the code computes by the capacity, and the capacity
divides `2 ^ 64`.
-/

namespace Disruptor

variable {P Q Event : Type}

/-! ### Mapping positions -/

def ProducerState.map (f : P → Q) (state : ProducerState P) : ProducerState Q where
  nextToPublish := f state.nextToPublish
  availableBeforeRescan := state.availableBeforeRescan
  blockingConsumer := state.blockingConsumer

def ProducerHandle.map (f : P → Q) (h : ProducerHandle P) : ProducerHandle Q where
  owner := h.owner
  state := h.state.map f

def ProducerPc.map (f : P → Q) : ProducerPc P Event → ProducerPc Q Event
  | .idle => .idle
  | .loadBlocker count writer => .loadBlocker count writer
  | .scan count writer index greatestLag greatestLagIndex =>
      .scan count writer index greatestLag greatestLagIndex
  | .write count writer first index => .write count writer (f first) index
  | .store count => .store count

def Producer.map (f : P → Q) (p : Producer P Event) : Producer Q Event where
  events := p.events
  published := p.published.map f
  owner := p.owner.map f
  session := p.session.map (·.map f)
  movedFrom := p.movedFrom.map (·.map f)
  pc := p.pc.map f
  views := p.views
  written := p.written
  accepted := p.accepted
  returned := p.returned

def ConsumerHandle.map (f : P → Q) (h : ConsumerHandle P) : ConsumerHandle Q where
  nextPosition := f h.nextPosition
  cachedPublishedPosition := f h.cachedPublishedPosition

def ConsumerPc.map (f : P → Q) : ConsumerPc P → ConsumerPc Q
  | .idle => .idle
  | .loadCursor maxCount => .loadCursor maxCount
  | .loadPublished first maxCount => .loadPublished (f first) maxCount
  | .handle first count index => .handle (f first) count index
  | .running first count index => .running (f first) count index
  | .store first count => .store (f first) count

def Consumer.map (f : P → Q) (c : Consumer P Event) : Consumer Q Event where
  released := c.released.map f
  handle := c.handle.map (·.map f)
  pc := c.pc.map f
  view := c.view
  handled := c.handled.map (Prod.map id f)
  returned := c.returned

/-- The state with `f` applied to every position. -/
def State.map (f : P → Q) (s : State P Event) : State Q Event where
  producer := s.producer.map f
  consumer i := (s.consumer i).map f

theorem ProducerState.availableBeforeRescan_map (f : P → Q) (state : ProducerState P) :
  (state.map f).availableBeforeRescan = state.availableBeforeRescan
  := by
  cases state
  rfl

theorem ProducerState.blockingConsumer_map (f : P → Q) (state : ProducerState P) :
  (state.map f).blockingConsumer = state.blockingConsumer
  := by
  cases state
  rfl

theorem ProducerState.nextToPublish_map (f : P → Q) (state : ProducerState P) :
  (state.map f).nextToPublish = f state.nextToPublish
  := by
  cases state
  rfl

/-- The 64-bit word of a position. -/
abbrev toWord : ℕ → SequenceType :=
  BitVec.ofNat 64

theorem toWord_toNat (position : SequenceType) :
  toWord position.toNat = position
  := Wrapping.ofNat_toNat position

theorem toWord_add (position count : ℕ) :
  toWord (position + count) = toWord position + BitVec.ofNat 64 count
  := BitVec.ofNat_add position count

/-! ### The producer -/

theorem ProducerHandle.map_synchronizeOwnerState (f : P → Q) (h : ProducerHandle P)
    (owner : ProducerState P) :
  (h.map f).synchronizeOwnerState (owner.map f) = (h.synchronizeOwnerState owner).map f
  := by
  obtain ⟨owned, state⟩ := h
  cases owned with
  | false => rfl
  | true => rfl

namespace Producer

section Map

variable (f : P → Q) (p : Producer P Event)

@[simp]
theorem state_map :
  (p.map f).state = p.state.map f
  := by
  cases h : p.session with
  | none => simp [Producer.map, Producer.state, h]
  | some _ => simp [Producer.map, Producer.state, h, ProducerHandle.map]

theorem pc_map :
  (p.map f).pc = p.pc.map f
  := rfl

theorem session_map :
  (p.map f).session = p.session.map (·.map f)
  := rfl

theorem current_published_map :
  (p.map f).published.current = f p.published.current
  := rfl

theorem movedFrom_map :
  (p.map f).movedFrom = p.movedFrom.map (·.map f)
  := rfl

@[simp]
theorem traversal_map :
  (p.map f).traversal = p.traversal
  := by
  simp [Producer.map, traversal]

@[simp]
theorem map_goto (pc : ProducerPc P Event) :
  (p.goto pc).map f = (p.map f).goto (pc.map f)
  := rfl

@[simp]
theorem map_finish (result : Bool) :
  (p.finish result).map f = (p.map f).finish result
  := rfl

@[simp]
theorem map_put (slot : ℕ) (event : Event) :
  (p.put slot event).map f = (p.map f).put slot event
  := rfl

@[simp]
theorem map_accept (count : ℕ) (writer : Writer Event) :
  (p.accept count writer).map f = (p.map f).accept count writer
  := by
  simp only [accept, state_map]
  rfl

@[simp]
theorem map_setState (state : ProducerState P) :
  (p.setState state).map f = (p.map f).setState (state.map f)
  := by
  cases h : p.session with
  | none => simp [setState, Producer.map, h]
  | some _ => simp [setState, Producer.map, h, ProducerHandle.map]

@[simp]
theorem map_tryPublishBatch (g : Geometry) (count : ℕ) (writer : Writer Event) :
  (p.tryPublishBatch g count writer).map f = (p.map f).tryPublishBatch g count writer
  := by
  simp only [tryPublishBatch, state_map, ProducerState.availableBeforeRescan_map]
  split_ifs
  · rfl
  · rfl
  · rfl
  · apply map_accept

end Map

section Wrap

variable {g : Geometry} {initial : ℕ} {released : ℕ → Location ℕ} {p : Producer ℕ Event}

/-- The lag of a consumer computed on words is the lag on unbounded positions. -/
theorem Inv.distance_eq {i place v : ℕ} (hp : p.Inv g initial released)
    (hc : Consumers g released p.published) (hi : i < g.consumerCount)
    (hl : (released i).load (p.views i) place = some v) :
  v ≤ p.state.nextToPublish ∧ p.state.nextToPublish < v + 2 ^ 64
  := by
  have hobserve := hp.observe (hc.growing i hi) hl
  have hle := hobserve.seen_le hc hi
  have hroom := hobserve.cache.room i hi
  rw [seen_observe hl, state_observe] at hle hroom
  have := g.capacity_lt
  constructor
  · apply hle
  · omega

theorem map_loadBlocker {count place v : ℕ} {writer : Writer Event}
    (hle : v ≤ p.state.nextToPublish) (hlt : p.state.nextToPublish < v + 2 ^ 64) :
  (p.loadBlocker g.unbounded g count writer place v).map toWord
    = (p.map toWord).loadBlocker g.wrapping g count writer place (toWord v)
  := by
  simp only [loadBlocker, state_map, ProducerState.nextToPublish_map,
    ProducerState.blockingConsumer_map]
  rw [g.wrapping_distance hle hlt]
  split
  · rfl
  · rfl

theorem map_loadScanned {count index greatestLag greatestLagIndex place v : ℕ}
    {writer : Writer Event} (hle : v ≤ p.state.nextToPublish)
    (hlt : p.state.nextToPublish < v + 2 ^ 64) :
  (p.loadScanned g.unbounded g count writer index greatestLag greatestLagIndex place v).map
      toWord
    = (p.map toWord).loadScanned g.wrapping g count writer index greatestLag
        greatestLagIndex place (toWord v)
  := by
  simp only [loadScanned, state_map, ProducerState.nextToPublish_map, state_observe]
  rw [g.wrapping_distance hle hlt]
  split
  · rw [map_finish, map_setState]
    rfl
  · split
    · rfl
    · rfl

theorem map_endScan {count greatestLag greatestLagIndex : ℕ} {writer : Writer Event} :
  (p.endScan g count writer greatestLag greatestLagIndex).map toWord
    = (p.map toWord).endScan g count writer greatestLag greatestLagIndex
  := by
  rw [endScan, endScan, map_accept, map_setState, state_map]
  rfl

theorem map_write {count first index : ℕ} {writer : Writer Event} :
  (p.write g.unbounded g count writer first index).map toWord
    = (p.map toWord).write g.wrapping g count writer (toWord first) index
  := by
  simp only [write, traversal_map, g.subscript_wrapping]
  split
  · rfl
  · rw [map_goto, map_setState, map_put, state_put, state_put, state_map]
    simp only [ProducerState.take, ProducerState.map, g.wrapping_advance]
    rfl

theorem map_store :
  (p.store).map toWord = (p.map toWord).store
  := by
  simp only [store, map_finish, state_map, ProducerState.nextToPublish_map]
  simp only [Producer.map, Location.map_store]

/-- A publication on words is in lock step with the publication on unbounded
positions. -/
theorem Inv.map_resume {place : ℕ} (hp : p.Inv g initial released)
    (hc : Consumers g released p.published) :
  (p.map toWord).resume g.wrapping g (fun i => (released i).map toWord) place
    = (p.resume g.unbounded g released place).map (·.map toWord)
  := by
  cases hpc : p.pc with
  | idle =>
      have hpc' : (p.map toWord).pc = .idle := congrArg (ProducerPc.map toWord) hpc
      rw [Producer.resume, Producer.resume, hpc, hpc']
      rfl
  | loadBlocker count writer =>
      have hpc' : (p.map toWord).pc = .loadBlocker count writer :=
        congrArg (ProducerPc.map toWord) hpc
      rw [Producer.resume, Producer.resume, hpc, hpc']
      simp only [state_map, ProducerState.blockingConsumer_map, Location.load_map,
        Option.map_map]
      cases hl : (released p.state.blockingConsumer).load
          (p.views p.state.blockingConsumer) place with
      | none =>
          simp only [Producer.map, hl]
          rfl
      | some v =>
          obtain ⟨hle, hlt⟩ := hp.distance_eq hc hp.cache.blocking hl
          simp only [Producer.map, hl]
          apply congrArg some
          symm
          apply map_loadBlocker hle hlt
  | scan count writer index greatestLag greatestLagIndex =>
      have hpc' : (p.map toWord).pc = .scan count writer index greatestLag greatestLagIndex :=
        congrArg (ProducerPc.map toWord) hpc
      rw [Producer.resume, Producer.resume, hpc, hpc']
      simp only [state_map, ProducerState.blockingConsumer_map, Location.load_map]
      split_ifs with hindex hblocker
      · rfl
      · rw [Option.map_map, Option.map_map]
        cases hl : (released index).load (p.views index) place with
        | none =>
            simp only [Producer.map, hl]
            rfl
        | some v =>
            obtain ⟨hle, hlt⟩ := hp.distance_eq hc hindex hl
            simp only [Producer.map, hl]
            apply congrArg some
            symm
            apply map_loadScanned hle hlt
      · apply congrArg some
        symm
        apply map_endScan
  | write count writer first index =>
      have hpc' : (p.map toWord).pc = .write count writer (toWord first) index :=
        congrArg (ProducerPc.map toWord) hpc
      rw [Producer.resume, Producer.resume, hpc, hpc']
      apply congrArg some
      symm
      apply map_write
  | store count =>
      have hpc' : (p.map toWord).pc = .store count := congrArg (ProducerPc.map toWord) hpc
      rw [Producer.resume, Producer.resume, hpc, hpc']
      apply congrArg some
      symm
      apply map_store

/-- The producer on words is in lock step with the producer on unbounded positions. -/
theorem Inv.map_step {a : ProducerAction Event} (hp : p.Inv g initial released)
    (hc : Consumers g released p.published) :
  (p.map toWord).step g.wrapping g (fun i => (released i).map toWord) a
    = (p.step g.unbounded g released a).map (·.map toWord)
  := by
  cases a with
  | resume place => apply hp.map_resume hc
  | publish count writer =>
      simp only [Producer.step, pc_map, session_map]
      cases p.pc with
      | idle =>
          cases p.session with
          | none =>
              simp only [ProducerPc.map, Option.map_none, Option.map_some, map_tryPublishBatch]
          | some h => rfl
      | _ => rfl
  | publishHandle count writer =>
      simp only [Producer.step, pc_map, session_map]
      cases p.pc with
      | idle =>
          cases p.session with
          | none => rfl
          | some h => simp only [ProducerPc.map, Option.map_some, map_tryPublishBatch]
      | _ => rfl
  | makeProducer =>
      simp only [Producer.step, pc_map, session_map]
      cases p.pc with
      | idle =>
          cases p.session with
          | none => rfl
          | some h => rfl
      | _ => rfl
  | moveHandle =>
      simp only [Producer.step, pc_map, session_map]
      cases p.pc with
      | idle =>
          cases p.session with
          | none => rfl
          | some h => simp [ProducerPc.map, Producer.map, ProducerHandle.move, ProducerHandle.map]
      | _ => rfl
  | destroyHandle =>
      simp only [Producer.step, pc_map, session_map]
      cases p.pc with
      | idle =>
          cases p.session with
          | none => rfl
          | some h => simp [ProducerPc.map, Producer.map, ProducerHandle.map_synchronizeOwnerState]
      | _ => rfl
  | destroyMovedFrom place =>
      simp only [Producer.step, pc_map, movedFrom_map, List.getElem?_map]
      cases p.pc with
      | idle =>
          cases p.movedFrom[place]? with
          | none => rfl
          | some h =>
              simp [ProducerPc.map, Producer.map, ProducerHandle.map_synchronizeOwnerState,
                List.eraseIdx_map]
      | _ => rfl

end Wrap

end Producer

/-! ### The consumers -/

namespace Consumer

section Map

variable (f : P → Q) (c : Consumer P Event)

theorem pc_map :
  (c.map f).pc = c.pc.map f
  := rfl

theorem pc_eq_idle {f : P → Q} {c : Consumer P Event} (h : (c.map f).pc = .idle) :
  c.pc = .idle
  := by
  rw [pc_map] at h
  cases hpc : c.pc with
  | idle => rfl
  | _ =>
      rw [hpc] at h
      cases h

theorem handle_map :
  (c.map f).handle = c.handle.map (·.map f)
  := rfl

@[simp]
theorem traversal_map :
  (c.map f).traversal = c.traversal
  := by
  simp [Consumer.map, traversal]

@[simp]
theorem map_goto (pc : ConsumerPc P) :
  (c.goto pc).map f = (c.map f).goto (pc.map f)
  := rfl

@[simp]
theorem map_finish (count : ℕ) :
  (c.finish count).map f = (c.map f).finish count
  := rfl

end Map

section Wrap

variable {g : Geometry} {initial : ℕ} {published : Location ℕ} {written : List Event}
  {events : ℕ → Event} {c : Consumer ℕ Event}

theorem map_loadPublished {first maxCount place v : ℕ} (hle : first ≤ v)
    (hlt : v < first + 2 ^ 64) :
  (c.loadPublished g.unbounded first maxCount place v).map toWord
    = (c.map toWord).loadPublished g.wrapping (toWord first) maxCount place (toWord v)
  := by
  rw [loadPublished, loadPublished, g.wrapping_distance hle hlt]
  split
  · simp [Consumer.map, finish, Function.comp_def, ConsumerHandle.map, ConsumerHandle.cache,
      ConsumerPc.map]
  · simp [Consumer.map, begin, goto, Function.comp_def, ConsumerHandle.map,
      ConsumerHandle.cache, ConsumerPc.map]

theorem map_enter {first count index : ℕ} :
  (c.enter g.unbounded g events first count index).map toWord
    = (c.map toWord).enter g.wrapping g events (toWord first) count index
  := by
  simp only [enter, traversal_map, g.subscript_wrapping, g.wrapping_advance]
  simp [Consumer.map, ConsumerPc.map]

theorem map_leave {first count index : ℕ} :
  (c.leave g.unbounded first count index).map toWord
    = (c.map toWord).leave g.wrapping (toWord first) count index
  := by
  rw [leave, leave]
  split
  · rfl
  · simp [Consumer.map, ConsumerPc.map, Function.comp_def, ConsumerHandle.map,
      ConsumerHandle.advance, g.wrapping_advance]

theorem map_store {first count : ℕ} :
  (c.store g.unbounded first count).map toWord
    = (c.map toWord).store g.wrapping (toWord first) count
  := by
  rw [store, store, map_finish]
  cases hh : c.handle with
  | none => simp [Consumer.map, hh, g.wrapping_advance]
  | some h => simp [Consumer.map, hh, ConsumerHandle.map]

/-- The publication boundary a consumer loads is at most `capacity` ahead of it. -/
theorem Inv.published_bounds {first maxCount place v : ℕ}
    (hc : c.Inv g initial published written)
    (hp : Provides g initial events published written c.released.current)
    (hpc : c.pc = .loadPublished first maxCount)
    (hl : published.load c.view place = some v) :
  first ≤ v ∧ v < first + 2 ^ 64
  := by
  have hat := hc.atPc
  rw [hpc] at hat
  obtain ⟨hfirst, -⟩ := hat
  obtain ⟨hview, hv⟩ := hp.growing.load hl
  have hreleased := hc.released_le
  have hcapacity := hp.current_le_capacity
  have := g.capacity_lt
  constructor
  · omega
  · omega

/-- A call on words is in lock step with the call on unbounded positions. -/
theorem Inv.map_resume {place : ℕ} (hc : c.Inv g initial published written)
    (hp : Provides g initial events published written c.released.current) :
  (c.map toWord).resume g.wrapping g events (published.map toWord) place
    = (c.resume g.unbounded g events published place).map (·.map toWord)
  := by
  cases hpc : c.pc with
  | idle =>
      have hpc' : (c.map toWord).pc = .idle := congrArg (ConsumerPc.map toWord) hpc
      rw [Consumer.resume, Consumer.resume, hpc, hpc']
      rfl
  | loadCursor maxCount =>
      have hpc' : (c.map toWord).pc = .loadCursor maxCount :=
        congrArg (ConsumerPc.map toWord) hpc
      rw [Consumer.resume, Consumer.resume, hpc, hpc']
      rfl
  | loadPublished first maxCount =>
      have hpc' : (c.map toWord).pc = .loadPublished (toWord first) maxCount :=
        congrArg (ConsumerPc.map toWord) hpc
      rw [Consumer.resume, Consumer.resume, hpc, hpc']
      simp only [Location.load_map, Option.map_map]
      cases hl : published.load c.view place with
      | none =>
          simp only [Consumer.map, hl]
          rfl
      | some v =>
          obtain ⟨hle, hlt⟩ := hc.published_bounds hp hpc hl
          simp only [Consumer.map, hl]
          apply congrArg some
          symm
          apply map_loadPublished hle hlt
  | handle first count index =>
      have hpc' : (c.map toWord).pc = .handle (toWord first) count index :=
        congrArg (ConsumerPc.map toWord) hpc
      rw [Consumer.resume, Consumer.resume, hpc, hpc']
      apply congrArg some
      symm
      apply map_enter
  | running first count index =>
      have hpc' : (c.map toWord).pc = .running (toWord first) count index :=
        congrArg (ConsumerPc.map toWord) hpc
      rw [Consumer.resume, Consumer.resume, hpc, hpc']
      apply congrArg some
      symm
      apply map_leave
  | store first count =>
      have hpc' : (c.map toWord).pc = .store (toWord first) count :=
        congrArg (ConsumerPc.map toWord) hpc
      rw [Consumer.resume, Consumer.resume, hpc, hpc']
      apply congrArg some
      symm
      apply map_store

/-- The events a handle has cached and not handled are at most `capacity`. -/
theorem Inv.cached_bounds {h : ConsumerHandle ℕ} (hc : c.Inv g initial published written)
    (hp : Provides g initial events published written c.released.current)
    (hpc : c.pc = .idle) (hh : c.handle = some h) :
  h.nextPosition ≤ h.cachedPublishedPosition
    ∧ h.cachedPublishedPosition ≤ g.capacity + h.nextPosition
  := by
  have hnext := hc.next_eq h hh
  have hcached := hc.cached_le h hh
  have hview := hp.growing.le_current hc.view_le
  have hcapacity := hp.current_le_capacity
  rw [hpc] at hnext
  simp only [ahead] at hnext
  constructor
  · apply hc.next_le h hh
  · omega

/-- A consumer on words is in lock step with the consumer on unbounded positions. -/
theorem Inv.map_step {i : ℕ} {a : ConsumerAction} (hc : c.Inv g initial published written)
    (hp : Provides g initial events published written c.released.current) :
  (c.map toWord).step g.wrapping g events (published.map toWord) i a
    = (c.step g.unbounded g events published i a).map (·.map toWord)
  := by
  cases a with
  | resume place => apply hc.map_resume hp
  | consume maxCount =>
      simp only [Consumer.step, pc_map, handle_map]
      cases c.pc with
      | idle =>
          cases c.handle with
          | none =>
              simp only [ConsumerPc.map, Option.map_none]
              split_ifs
              · rfl
              · rfl
          | some h => rfl
      | _ => rfl
  | makeConsumer =>
      simp only [Consumer.step, pc_map, handle_map]
      cases c.pc with
      | idle =>
          cases c.handle with
          | none =>
              simp only [ConsumerPc.map, Option.map_none]
              split_ifs
              · rfl
              · rfl
          | some h => rfl
      | _ => rfl
  | consumeHandle maxCount =>
      simp only [Consumer.step, pc_map, handle_map]
      cases hpc : c.pc with
      | idle =>
          cases hh : c.handle with
          | none => rfl
          | some h =>
              obtain ⟨hle, hlt⟩ := hc.cached_bounds hp hpc hh
              have := g.capacity_lt
              have hdistance := g.wrapping_distance hle (by omega)
              simp only [ConsumerPc.map, Option.map_some, ConsumerHandle.map]
              rw [hdistance]
              split_ifs
              · rfl
              · rfl
              · rfl
      | _ => rfl
  | moveHandle =>
      simp only [Consumer.step, pc_map, handle_map]
      cases c.pc with
      | idle =>
          cases c.handle with
          | none => rfl
          | some h => rfl
      | _ => rfl
  | discardHandle =>
      simp only [Consumer.step, pc_map, handle_map]
      cases c.pc with
      | idle =>
          cases c.handle with
          | none => rfl
          | some h => rfl
      | _ => rfl

end Wrap

/-- A consumer outside the registered range makes no subtraction. -/
theorem map_step_outside {g : Geometry} {events : ℕ → Event} {published : Location ℕ} {i : ℕ}
    {c : Consumer ℕ Event} {a : ConsumerAction} (hpc : c.pc = .idle) (hh : c.handle = none) :
  (c.map toWord).step g.wrapping g events (published.map toWord) i a
    = (c.step g.unbounded g events published i a).map (·.map toWord)
  := by
  have hpc' : (c.map toWord).pc = .idle := by
    rw [pc_map, hpc]
    rfl
  have hh' : (c.map toWord).handle = none := by
    rw [handle_map, hh]
    rfl
  cases a with
  | resume place =>
      simp only [Consumer.step, Consumer.resume, hpc, hpc']
      rfl
  | consume maxCount =>
      simp only [Consumer.step, hpc, hpc', hh, hh']
      split_ifs
      · rfl
      · rfl
  | makeConsumer =>
      simp only [Consumer.step, hpc, hpc', hh, hh']
      split_ifs
      · rfl
      · rfl
  | _ =>
      simp only [Consumer.step, hpc, hpc', hh, hh']
      rfl

end Consumer

/-! ### The machine -/

namespace State

variable {g : Geometry} {initial : ℕ} {s : State ℕ Event}

theorem released_map (f : P → Q) (t : State P Event) :
  (t.map f).released = fun i => (t.released i).map f
  := rfl

theorem producer_map (f : P → Q) (t : State P Event) :
  (t.map f).producer = t.producer.map f
  := rfl

theorem current_released_map (f : P → Q) (t : State P Event) (i : ℕ) :
  ((t.map f).released i).current = f (t.released i).current
  := rfl

theorem map_update (f : P → Q) (t : State P Event) (i : ℕ) (c : Consumer P Event) :
  (State.mk t.producer (Function.update t.consumer i c)).map f
    = { t.map f with consumer := Function.update (t.map f).consumer i (c.map f) }
  := by
  simp only [State.map, mk.injEq, true_and]
  funext j
  by_cases hj : j = i
  · subst hj
    simp
  · simp [hj]

/-- A consumer of the machine on words is in lock step with that of the machine on
unbounded positions. -/
theorem Inv.map_step_consumer {i : ℕ} {a : ConsumerAction} (hs : s.Inv g initial) :
  ((s.consumer i).map toWord).step g.wrapping g s.producer.events
      (s.producer.published.map toWord) i a
    = ((s.consumer i).step g.unbounded g s.producer.events s.producer.published i a).map
        (·.map toWord)
  := by
  rcases Nat.lt_or_ge i g.consumerCount with hi | hi
  · apply (hs.consumer i hi).map_step (hs.provides hi)
  · obtain ⟨hpc, hhandle⟩ := hs.outside i hi
    apply Consumer.map_step_outside hpc hhandle

/-- The machine on words is in lock step with the machine on unbounded positions. -/
theorem Inv.map_step {a : Action Event} (hs : s.Inv g initial) :
  (s.map toWord).step g.wrapping g a = (s.step g.unbounded g a).map (·.map toWord)
  := by
  cases a with
  | producer a =>
      have h := hs.producer.map_step (a := a) hs.consumers
      simp only [State.step, released_map]
      rw [State.map, h, Option.map_map, Option.map_map]
      rfl
  | consumer i a =>
      have h := hs.map_step_consumer (i := i) (a := a)
      simp only [State.step]
      rw [State.map]
      simp only [Producer.map]
      rw [h, Option.map_map, Option.map_map]
      congr 1
      funext c
      symm
      apply map_update toWord s i c

theorem init_map [Inhabited Event] (f : P → Q) (g : Geometry) (position : P) :
  (init g position : State P Event).map f = init g (f position)
  := rfl

/-- The runs on words from the image of a state are the images of the runs from it. -/
theorem Inv.map_run [Inhabited Event] (hs : s.Inv g initial) (initialPosition : SequenceType)
    (as : List (Action Event)) :
  (machine Event g.wrapping g initialPosition).run as (s.map toWord)
    = ((machine Event g.unbounded g initial).run as s).map (·.map toWord)
  := by
  apply TransitionSystem.run_map (I := Inv g initial)
  · intro _ _ _ hs h
    apply hs.step h
  · intro _ _ hs
    apply hs.map_step
  · apply hs

/-- The runs on words are the images of the runs on unbounded positions. -/
theorem run_wrapping [Inhabited Event] (g : Geometry) (initialPosition : SequenceType)
    (as : List (Action Event)) :
  (machine Event g.wrapping g initialPosition).run as (init g initialPosition)
    = ((machine Event g.unbounded g initialPosition.toNat).run as
        (init g initialPosition.toNat)).map (·.map toWord)
  := by
  rw [← (inv_init g initialPosition.toNat).map_run initialPosition as, init_map, toWord_toNat]

/-- The reachable states on words are the images of the reachable states on unbounded
positions. -/
theorem reachable_wrapping_iff [Inhabited Event] {initialPosition : SequenceType}
    {t : State SequenceType Event} :
  (machine Event g.wrapping g initialPosition).Reachable t
    ↔ ∃ s, (machine Event g.unbounded g initialPosition.toNat).Reachable s ∧ s.map toWord = t
  := by
  apply TransitionSystem.reachable_map_iff _ (I := Inv g initialPosition.toNat)
  · apply inv_init
  · intro _ _ _ hs h
    apply hs.step h
  · intro _ _ hs
    apply hs.map_step
  · simp only [machine]
    rw [init_map, toWord_toNat]

end State

/-! ### What the code computes from positions -/

section Computed

variable (g : Geometry)

/-- The operands of the lag the producer computes in its step along an action, if it
computes one. -/
def Producer.lagOperands (released : ℕ → Location P) (p : Producer P Event) :
    ProducerAction Event → Option (P × P)
  | .resume place =>
      match p.pc with
      | .loadBlocker _ _ =>
          let blocker := p.state.blockingConsumer
          ((released blocker).load (p.views blocker) place).map (p.state.nextToPublish, ·)
      | .scan _ _ index _ _ =>
          if index < g.consumerCount ∧ index ≠ p.state.blockingConsumer then
            ((released index).load (p.views index) place).map (p.state.nextToPublish, ·)
          else none
      | _ => none
  | _ => none

/-- The operands of the count of available events a consumer computes in its step along an
action, if it computes one. -/
def Consumer.availableOperands (published : Location P) (c : Consumer P Event) :
    ConsumerAction → Option (P × P)
  | .resume place =>
      match c.pc with
      | .loadPublished first _ => (published.load c.view place).map (·, first)
      | _ => none
  | .consumeHandle _ =>
      match c.pc, c.handle with
      | .idle, some h => some (h.cachedPublishedPosition, h.nextPosition)
      | _, _ => none
  | _ => none

/-- The report `published_position()` where the load reads the value at place `place`. -/
def State.publishedPosition (s : State P Event) (place : ℕ) : P :=
  s.producer.published.value place

/-- The report `consumer_position(i)` where the load reads the value at place `place`. -/
def State.consumerPosition [Zero P] (s : State P Event) (i place : ℕ) : P :=
  if i ≥ g.consumerCount then 0 else (s.released i).value place

/-- The report `published_sequence()` where the load reads the value at place `place`. -/
def State.publishedSequence (s : State SequenceType Event) (place : ℕ) : SequenceType :=
  s.producer.published.value place - 1

/-- The report `consumer_sequence(i)` where the load reads the value at place `place`. -/
def State.consumerSequence (s : State SequenceType Event) (i place : ℕ) : SequenceType :=
  if i ≥ g.consumerCount then BitVec.allOnes 64 else (s.released i).value place - 1

/-- A difference of words is the difference of the positions they stand for. -/
def Exact (p q : ℕ) : Prop :=
  q ≤ p ∧ (toWord p - toWord q).toNat = p - q

variable {g}

theorem exact_of_le {p q : ℕ} (hle : q ≤ p) (hlt : p < q + 2 ^ 64) :
  Exact p q
  := ⟨hle, Wrapping.toNat_sub_ofNat hle (by omega)⟩

/-- The word before that of a position is that of the integer before it. -/
theorem toWord_sub_one (p : ℕ) :
  toWord p - 1 = BitVec.ofInt 64 ((p : ℤ) - 1)
  := by
  rw [Int.sub_eq_add_neg, BitVec.ofInt_add, BitVec.ofInt_neg, BitVec.ofInt_natCast,
    BitVec.sub_eq_add_neg]
  rfl

namespace Producer

variable {initial : ℕ} {released : ℕ → Location ℕ} {p : Producer ℕ Event}

/-- Every lag the producer computes on words is the lag on unbounded positions. -/
theorem Inv.exact_lag {a : ProducerAction Event} {next position : ℕ}
    (hp : p.Inv g initial released) (hc : Consumers g released p.published)
    (h : p.lagOperands g released a = some (next, position)) :
  Exact next position
  := by
  cases a with
  | resume place =>
      simp only [lagOperands] at h
      split at h
      case h_1 =>
        obtain ⟨v, hl, hv⟩ := Option.map_eq_some_iff.mp h
        obtain ⟨rfl, rfl⟩ := Prod.mk.inj hv
        obtain ⟨hle, hlt⟩ := hp.distance_eq hc hp.cache.blocking hl
        apply exact_of_le hle hlt
      case h_2 =>
        split_ifs at h with hindex
        obtain ⟨v, hl, hv⟩ := Option.map_eq_some_iff.mp h
        obtain ⟨rfl, rfl⟩ := Prod.mk.inj hv
        obtain ⟨hle, hlt⟩ := hp.distance_eq hc hindex.1 hl
        apply exact_of_le hle hlt
      case h_3 => cases h
  | _ => cases h

end Producer

namespace Consumer

variable {initial : ℕ} {published : Location ℕ} {written : List Event} {events : ℕ → Event}
  {c : Consumer ℕ Event}

/-- Every count of available events a consumer computes on words is the count on unbounded
positions. -/
theorem Inv.exact_available {a : ConsumerAction} {available first : ℕ}
    (hc : c.Inv g initial published written)
    (hp : Provides g initial events published written c.released.current)
    (h : c.availableOperands published a = some (available, first)) :
  Exact available first
  := by
  cases a with
  | resume place =>
      simp only [availableOperands] at h
      split at h
      case h_1 _ maxCount hpc =>
        obtain ⟨v, hl, hv⟩ := Option.map_eq_some_iff.mp h
        obtain ⟨rfl, rfl⟩ := Prod.mk.inj hv
        obtain ⟨hle, hlt⟩ := hc.published_bounds hp hpc hl
        apply exact_of_le hle hlt
      case h_2 => cases h
  | consumeHandle maxCount =>
      simp only [availableOperands] at h
      split at h
      case h_1 hpc hh =>
        obtain ⟨rfl, rfl⟩ := Prod.mk.inj (Option.some.inj h)
        obtain ⟨hle, hlt⟩ := hc.cached_bounds hp hpc hh
        have := g.capacity_lt
        apply exact_of_le hle
        omega
      case h_2 => cases h
  | _ => cases h

end Consumer

namespace State

variable {initial : ℕ} {s : State ℕ Event}

/-- What the code computes from the positions of a state is the same on words and on
unbounded positions: the lags, the counts of available events, and the slots of the batch
in progress. -/
structure ExactArithmetic (g : Geometry) (s : State ℕ Event) : Prop where
  lag : ∀ a next position,
    s.producer.lagOperands g s.released a = some (next, position) → Exact next position
  available : ∀ i < g.consumerCount, ∀ a available first,
    (s.consumer i).availableOperands s.producer.published a = some (available, first) →
      Exact available first
  index : ∀ position, g.wrapping.index (toWord position) = position % g.capacity
  slot_written : ∀ count writer first index,
    s.producer.pc = .write count writer first index →
      g.subscript g.wrapping s.producer.traversal (toWord first) count index
        = (first + index) % g.capacity
  slot_read : ∀ i < g.consumerCount, ∀ first count index,
    (s.consumer i).pc = .handle first count index →
      g.subscript g.wrapping (s.consumer i).traversal (toWord first) count index
        = (first + index) % g.capacity

theorem Inv.exactArithmetic (hs : s.Inv g initial) :
  s.ExactArithmetic g
  := by
  constructor
  · intro a next position h
    apply hs.producer.exact_lag hs.consumers h
  · intro i hi a available first h
    apply (hs.consumer i hi).exact_available (hs.provides hi) h
  · intro position
    apply g.wrapping_index
  · intro count writer first index hpc
    have hat := hs.producer.atPc
    have havailable := hs.producer.available_le hs.consumers
    rw [hpc] at hat
    obtain ⟨hindex, -, hcount⟩ := hat
    rw [g.subscript_wrapping]
    apply g.subscript_unbounded _ _ hindex (by omega)
  · intro i hi first count index hpc
    obtain ⟨hbatch, hindex⟩ := (hs.consumer i hi).batch_of_handle hpc
    have hcount := hbatch.count_le (hs.provides hi) (hs.consumer i hi).view_le
    rw [g.subscript_wrapping]
    apply g.subscript_unbounded _ _ hindex hcount

/-- Sequence rollover is invisible. A run on 64-bit positions takes the branches of the run
on unbounded positions, to the state with the positions taken modulo `2 ^ 64`: what the
calls have returned and the events delivered are the same. At every state of the run the
code computes the same lags, counts and slots from the words as from the positions, and
the reports are those on unbounded positions modulo `2 ^ 64`. -/
theorem rollover_invisible [Inhabited Event] (g : Geometry) (initialPosition : SequenceType)
    (as : List (Action Event)) :
  (machine Event g.wrapping g initialPosition).run as (init g initialPosition)
      = ((machine Event g.unbounded g initialPosition.toNat).run as
          (init g initialPosition.toNat)).map (·.map toWord)
    ∧ ∀ s, (machine Event g.unbounded g initialPosition.toNat).run as
        (init g initialPosition.toNat) = some s →
      s.ExactArithmetic g
        ∧ (s.map toWord).producer.returned = s.producer.returned
        ∧ (∀ i, ((s.map toWord).consumer i).returned = (s.consumer i).returned)
        ∧ (∀ i, ((s.map toWord).consumer i).handled
            = (s.consumer i).handled.map fun x => (x.1, toWord x.2))
        ∧ (∀ place, (s.map toWord).publishedPosition place = toWord (s.publishedPosition place))
        ∧ (∀ place, (s.map toWord).publishedSequence place
            = BitVec.ofInt 64 ((s.publishedPosition place : ℤ) - 1))
        ∧ (∀ i place, (s.map toWord).consumerPosition g i place
            = toWord (s.consumerPosition g i place))
        ∧ ∀ i < g.consumerCount, ∀ place, (s.map toWord).consumerSequence g i place
            = BitVec.ofInt 64 (((s.consumerPosition g i place : ℕ) : ℤ) - 1)
  := by
  use run_wrapping g initialPosition as
  intro s h
  have hs : s.Inv g initialPosition.toNat := inv_of_reachable ⟨as, h⟩
  use hs.exactArithmetic
  use rfl
  use fun i => rfl
  use fun i => rfl
  use fun place => rfl
  constructor
  · intro place
    apply toWord_sub_one
  constructor
  · intro i place
    rw [consumerPosition, consumerPosition]
    split_ifs
    · rfl
    · rfl
  · intro i hi place
    simp only [consumerPosition, consumerSequence, if_neg (Nat.not_le_of_lt hi)]
    apply toWord_sub_one

end State

end Computed

end Disruptor
