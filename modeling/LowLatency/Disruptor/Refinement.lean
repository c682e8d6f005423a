import LowLatency.Disruptor.Sequential

/-!
# The disruptor implements the log

Run on one thread, the disruptor answers every operation as the bounded multicast log does.
The log is what the machine has written, and the offset of a consumer is the distance of its
released position from the first one. The proof runs the machine on unbounded positions and
its image on words side by side.
-/

namespace Disruptor

variable {Event : Type} [Inhabited Event] {g : Geometry} {initial : ℕ}

/-! ### Recycled slots -/

/-- The slots never written hold the default event. -/
def Producer.Fresh (g : Geometry) (initial : ℕ) (p : Producer ℕ Event) : Prop :=
  ∀ k, p.written.length ≤ k → k < g.capacity →
    p.events ((initial + k) % g.capacity) = default

namespace State

variable {s s' : State ℕ Event}

theorem Inv.fresh_step {a : Action Event} (hs : s.Inv g initial)
    (hf : s.producer.Fresh g initial) (h : s.step g.unbounded g a = some s') :
  s'.producer.Fresh g initial
  := by
  cases a with
  | producer a =>
      obtain ⟨p, hp, rfl⟩ := step_producer.mp h
      rcases Producer.step_memory hp with hsame | ⟨count, writer, first, index, hpc, rfl⟩
        | ⟨count, -, rfl⟩
      · intro k hk hlt
        rw [hsame.events]
        apply hf k _ hlt
        rw [← hsame.written]
        apply hk
      · intro k hk hlt
        have hslot := hs.producer.subscript_eq hs.consumers hpc
        rw [Producer.written_write, List.length_append, List.length_singleton] at hk
        rw [Producer.events_write, hslot, Function.update_of_ne]
        · apply hf k (by omega) hlt
        · symm
          apply Wrapping.mod_ne_mod
          · omega
          · omega
      · apply hf
  | consumer i a =>
      obtain ⟨c, -, rfl⟩ := step_consumer.mp h
      apply hf

theorem fresh_of_reachable (hs : (machine Event g.unbounded g initial).Reachable s) :
  s.producer.Fresh g initial
  := by
  have h : s.Inv g initial ∧ s.producer.Fresh g initial := by
    apply hs.invariant
    · use inv_init g initial
      intro k _ _
      rfl
    · intro a s t hs h
      use hs.1.step h
      apply hs.1.fresh_step hs.2 h
  apply h.2

/-- A writer is called on the recycled event of the log. -/
theorem Inv.recycled_eq (hs : s.Inv g initial) (hf : s.producer.Fresh g initial) :
  s.producer.events ((initial + s.producer.written.length) % g.capacity)
    = MulticastLog.recycled g s.producer.written
  := by
  rw [MulticastLog.recycled]
  split
  case isTrue hlt => apply hf _ le_rfl hlt
  case isFalse hge =>
    have hcapacity := g.capacity_ne_zero
    have hlast : s.producer.written.length - g.capacity < s.producer.written.length := by omega
    have hslot := hs.producer.log.slots _ _ (List.getElem?_eq_getElem hlast) (by omega)
    have hposition : initial + s.producer.written.length
        = initial + (s.producer.written.length - g.capacity) + g.capacity := by omega
    rw [List.getD_eq_getElem?_getD, List.getElem?_eq_getElem hlast, Option.getD_some, ← hslot,
      hposition, Nat.add_mod_right]

end State

/-! ### The events a publication appends -/

namespace Producer

/-- The events written by a publication of `count` events with `writer`, where `entries` were
written and `accepted` batches accepted before it. -/
def Filled (g : Geometry) (count : ℕ) (writer : Writer Event) (entries : List Event)
    (accepted : List ℕ) (p : Producer ℕ Event) : ProducerPc ℕ Event → Prop
  | .idle =>
      p.accepted = accepted ∨ p.written = MulticastLog.append g writer entries count
  | .loadBlocker c w => c = count ∧ w = writer ∧ p.written = entries ∧ p.accepted = accepted
  | .scan c w _ _ _ => c = count ∧ w = writer ∧ p.written = entries ∧ p.accepted = accepted
  | .write c w _ index =>
      c = count ∧ w = writer ∧ p.written = MulticastLog.append g writer entries index
  | .store c => c = count ∧ p.written = MulticastLog.append g writer entries count

variable {count : ℕ} {writer : Writer Event} {entries : List Event} {accepted : List ℕ}
  {released : ℕ → Location ℕ} {place : ℕ} {p p' : Producer ℕ Event}

theorem filled_tryPublishBatch (hpos : 0 < count) (hcount : count ≤ g.capacity) :
  Filled g count writer p.written p.accepted (p.tryPublishBatch g count writer)
    (p.tryPublishBatch g count writer).pc
  := by
  rw [tryPublishBatch, if_neg (by omega), if_neg (by omega)]
  split
  · exact ⟨rfl, rfl, rfl, rfl⟩
  · exact ⟨rfl, rfl, rfl⟩

/-- A publication appends the next event of its batch with each call of the writer. -/
theorem Filled.resume (hp : p.Inv g initial released) (hc : Consumers g released p.published)
    (hrecycled : p.events ((initial + p.written.length) % g.capacity)
      = MulticastLog.recycled g p.written)
    (h : Filled g count writer entries accepted p p.pc)
    (hresume : p.resume g.unbounded g released place = some p') :
  Filled g count writer entries accepted p' p'.pc
  := by
  cases resumed_of_resume hresume with
  | loadBlocker c w v hpc =>
      rw [hpc] at h
      rw [loadBlocker]
      split
      · left
        apply h.2.2.2
      · apply h
  | skipScanned c w greatestLag greatestLagIndex hpc =>
      rw [hpc] at h
      apply h
  | loadScanned c w index greatestLag greatestLagIndex v hpc =>
      rw [hpc] at h
      rw [loadScanned]
      split
      · left
        apply h.2.2.2
      · split
        · apply h
        · apply h
  | endScan c w index greatestLag greatestLagIndex hpc =>
      rw [hpc] at h
      obtain ⟨rfl, rfl, rfl, -⟩ := h
      exact ⟨rfl, rfl, rfl⟩
  | write c w first index hpc =>
      have hslot := hp.subscript_eq hc hpc
      have hat := hp.atPc
      rw [hpc] at h hat
      obtain ⟨rfl, rfl, hwritten⟩ := h
      have happend : (p.write g.unbounded g c w first index).written
          = MulticastLog.append g w entries (index + 1) := by
        rw [written_write, hslot, hrecycled, hwritten]
        rfl
      by_cases hlt : index + 1 < c
      · simp only [write, if_pos hlt] at happend ⊢
        exact ⟨rfl, rfl, happend⟩
      · obtain rfl : c = index + 1 := by
          have := hat.1
          omega
        simp only [write, if_neg hlt] at happend ⊢
        exact ⟨rfl, happend⟩
  | store c hpc =>
      rw [hpc] at h
      right
      apply h.2

end Producer

/-! ### A publication which runs alone -/

namespace State

variable {initialPosition : SequenceType} {count : ℕ} {writer : Writer Event}
  {s s₀ s₁ s' : State ℕ Event}

omit [Inhabited Event] in
theorem Inv.map_callStep (hs : s.Inv g initial) :
  (s.map toWord).callStep g.wrapping g .resume
    = (s.callStep g.unbounded g .resume).map (·.map toWord)
  := by
  rw [callStep, callStep, currentPlace_map, hs.map_step]

/-- The states of a publication which runs alone from `s₀`. -/
structure Publishing (g : Geometry) (initialPosition : SequenceType) (count : ℕ)
    (writer : Writer Event) (s₀ s : State ℕ Event) : Prop where
  reachable : (machine Event g.unbounded g initialPosition.toNat).Reachable s
  underWay : UnderWay g initialPosition count (s₀.map toWord).producer (s.map toWord)
  consumer : s.consumer = s₀.consumer
  filled : s.producer.Filled g count writer s₀.producer.written s₀.producer.accepted s.producer.pc
  session : s.producer.session.isSome = s₀.producer.session.isSome
  movedFrom : s.producer.movedFrom = s₀.producer.movedFrom
  decided : ∀ result, s.producer.returned = s₀.producer.returned ++ [result] →
    (result = true
      ↔ HasRoom g (s₀.map toWord).producer.state.nextToPublish count (s₀.map toWord))

omit [Inhabited Event] in
theorem hasRoom_congr {first : SequenceType} (h : s.consumer = s₀.consumer) :
  HasRoom g first count (s.map toWord) ↔ HasRoom g first count (s₀.map toWord)
  := by
  have hmap : (s.map toWord).consumer = (s₀.map toWord).consumer := by
    simp only [State.map, h]
  simp only [HasRoom, lag, released, hmap]

/-- A publication which runs alone keeps what it began with. -/
theorem Publishing.callStep (h : Publishing g initialPosition count writer s₀ s)
    (hstep : s.callStep g.unbounded g .resume = some s') :
  Publishing g initialPosition count writer s₀ s'
  := by
  have hs := inv_of_reachable h.reachable
  have hwords : (s.map toWord).callStep g.wrapping g .resume = some (s'.map toWord) := by
    rw [hs.map_callStep, hstep]
    rfl
  obtain ⟨p, hp, rfl⟩ := step_producer.mp hstep
  have hsame := Producer.sameHandles_resume hp
  constructor
  · apply reachable_of_callStep h.reachable hstep
  · apply h.underWay.callStep hwords
  · apply h.consumer
  · have hrecycled := hs.recycled_eq (fresh_of_reachable h.reachable)
    apply h.filled.resume hs.producer hs.consumers hrecycled hp
  · rw [hsame.isSome, h.session]
  · rw [hsame.movedFrom, h.movedFrom]
  · intro result hresult
    by_cases hbefore : s.producer.returned = s₀.producer.returned ++ [result]
    · apply h.decided result hbefore
    · have hdecided := h.underWay.decided hbefore hwords hresult
      cases result with
      | true =>
          have hroom := h.underWay.hasRoom hdecided
          rw [hasRoom_congr h.consumer] at hroom
          simp only [hroom]
      | false =>
          have hroom : ¬HasRoom g (s₀.map toWord).producer.state.nextToPublish count
              (s.map toWord) := hdecided
          rw [hasRoom_congr h.consumer] at hroom
          simp only [hroom, Bool.false_eq_true]

/-- A publication which runs alone returns. -/
theorem Publishing.returnProducer (h : Publishing g initialPosition count writer s₀ s) :
  Publishing g initialPosition count writer s₀ (s.returnProducer g.unbounded g)
    ∧ (s.returnProducer g.unbounded g).producer.pc = .idle
  := by
  apply TransitionSystem.settle_done (fun t => t.producer.pc = .idle)
    (fun t => Producer.remaining g t.producer.pc) _ _ h le_rfl
  · intro t ht hpc
    obtain ⟨t', hstep⟩ := (inv_of_reachable ht.reachable).exists_callStep hpc
    use t', hstep, ht.callStep hstep
    obtain ⟨p, hp, rfl⟩ := step_producer.mp hstep
    apply Producer.remaining_resume hp
  · intro t hpc
    simp only [State.callStep, State.step, Producer.step, Producer.resume, hpc, Option.map_none]

/-- What a publication which ran alone returns, and what it has written. -/
theorem Publishing.result (h : Publishing g initialPosition count writer s₀ s)
    (hpc : s.producer.pc = .idle) :
  (HasRoom g (s₀.map toWord).producer.state.nextToPublish count (s₀.map toWord)
      ∧ s.producer.returned = s₀.producer.returned ++ [true]
      ∧ s.producer.written = MulticastLog.append g writer s₀.producer.written count)
    ∨ ¬HasRoom g (s₀.map toWord).producer.state.nextToPublish count (s₀.map toWord)
      ∧ s.producer.returned = s₀.producer.returned ++ [false]
      ∧ s.producer.written = s₀.producer.written
  := by
  have hcourse := h.underWay.course
  have hfilled := h.filled
  have hidle : (s.map toWord).producer.pc = .idle := congrArg (ProducerPc.map toWord) hpc
  rw [hidle] at hcourse
  rw [hpc] at hfilled
  rcases hcourse with haccepted | hrejected
  · left
    have hreturned : s.producer.returned = s₀.producer.returned ++ [true] := haccepted.returned
    use (h.decided true hreturned).mp rfl, hreturned
    rcases hfilled with hsame | hwritten
    · have hlonger : s.producer.accepted = s₀.producer.accepted ++ [count] :=
        haccepted.accepted
      rw [hsame] at hlonger
      simp at hlonger
    · apply hwritten
  · right
    have hreturned : s.producer.returned = s₀.producer.returned ++ [false] :=
      hrejected.returned
    constructor
    · intro hroom
      cases (h.decided false hreturned).mpr hroom
    · use hreturned
      apply hrejected.memory.written

/-- The publication begins. -/
theorem publishing_begin {a : ProducerAction Event}
    (hs : (machine Event g.unbounded g initialPosition.toNat).Reachable s₀)
    (hpos : 0 < count) (hcount : count ≤ g.capacity)
    (ha : a = .publish count writer ∨ a = .publishHandle count writer)
    (h : s₀.step g.unbounded g (.producer a) = some s₁) :
  Publishing g initialPosition count writer s₀ s₁
  := by
  have hreachable := reachable_of_step hs h
  have hfirst := step_publish ha h
  have hsession : (s₀.producer.tryPublishBatch g count writer).session = s₀.producer.session
      ∧ (s₀.producer.tryPublishBatch g count writer).movedFrom = s₀.producer.movedFrom := by
    rw [Producer.tryPublishBatch, if_neg (by omega), if_neg (by omega)]
    split
    all_goals exact ⟨rfl, rfl⟩
  subst hfirst
  constructor
  · apply hreachable
  · constructor
    · apply reachable_wrapping_iff.mpr
      exact ⟨_, hreachable, rfl⟩
    · simp only [producer_map, Producer.map_tryPublishBatch]
      apply Producer.course_tryPublishBatch hpos hcount
  · rfl
  · apply Producer.filled_tryPublishBatch hpos hcount
  · rw [hsession.1]
  · apply hsession.2
  · intro result hresult
    rw [Producer.returned_tryPublishBatch hpos hcount] at hresult
    simp at hresult

end State

/-! ### A call of a consumer which runs alone -/

omit [Inhabited Event] in
/-- How far an indexed call which began at `c₀`, for at most `maxCount` events of which
`available` are available, is at `c`. -/
def Consumer.Course (maxCount available : ℕ) (c c₀ : Consumer ℕ Event) : ConsumerPc ℕ → Prop
  | .idle =>
      c.returned = c₀.returned ++ [min maxCount available]
        ∧ c.released.current = c₀.released.current + min maxCount available
  | .loadCursor m =>
      m = maxCount ∧ c.returned = c₀.returned ∧ c.released.current = c₀.released.current
  | .loadPublished _ m =>
      m = maxCount ∧ c.returned = c₀.returned ∧ c.released.current = c₀.released.current
  | .handle _ count _ =>
      count = min maxCount available ∧ c.returned = c₀.returned
        ∧ c.released.current = c₀.released.current
  | .running _ count _ =>
      count = min maxCount available ∧ c.returned = c₀.returned
        ∧ c.released.current = c₀.released.current
  | .store _ count =>
      count = min maxCount available ∧ c.returned = c₀.returned
        ∧ c.released.current = c₀.released.current

namespace Consumer

variable {maxCount : ℕ} {c₀ c c' : Consumer ℕ Event} {events : ℕ → Event}
  {published : Location ℕ} {written : List Event}

omit [Inhabited Event] in
/-- The steps of a call which loads the current published position follow its course. -/
theorem Course.resume (hc : c.Inv g initial published written)
    (h : c.Course maxCount (published.current - c₀.released.current) c₀ c.pc)
    (hresume : c.resume g.unbounded g events published published.last = some c') :
  c'.Course maxCount (published.current - c₀.released.current) c₀ c'.pc
  := by
  have hat := hc.atPc
  cases resumed_of_resume hresume with
  | loadCursor m hpc =>
      rw [hpc] at h
      apply h
  | loadPublished first m v hpc hv =>
      rw [hpc] at h hat
      obtain rfl := State.current_of_load hv
      obtain ⟨rfl, hreturned, hreleased⟩ := h
      obtain ⟨rfl, -⟩ := hat
      rw [loadPublished]
      split
      case isTrue hzero =>
        rw [Geometry.unbounded_distance, hreleased] at hzero
        simp only [finish, Course, hzero, Nat.min_zero, hreturned, Nat.add_zero, true_and]
        apply hreleased
      case isFalse hpos =>
        rw [Geometry.unbounded_distance, hreleased]
        constructor
        · split_ifs
          · omega
          · omega
        · use hreturned
          apply hreleased
  | handle first count index hpc =>
      rw [hpc] at h
      apply h
  | running first count index hpc =>
      rw [hpc] at h
      rw [leave]
      split
      · apply h
      · apply h
  | store first count hpc =>
      have hstore := hc.store_eq hpc
      rw [hpc] at h
      obtain ⟨rfl, hreturned, hreleased⟩ := h
      constructor
      · simp only [store, finish, hreturned]
      · rw [hstore, Location.current_store, hreleased]

omit [Inhabited Event] in
/-- An indexed call makes no handle. -/
theorem handle_resume {P : Type} {A : PositionArithmetic P} {published : Location P} {place : ℕ}
    {d d' : Consumer P Event} (hnone : d.handle = none)
    (h : d.resume A g events published place = some d') :
  d'.handle = none
  := by
  cases resumed_of_resume h with
  | loadPublished first m v =>
      rw [loadPublished]
      split
      all_goals simp only [finish, begin, goto, hnone, Option.map_none]
  | running first count index =>
      rw [leave]
      split
      all_goals simp only [goto, hnone, Option.map_none]
  | _ => apply hnone

end Consumer

namespace State

variable {i maxCount : ℕ} {s s₀ s₁ s' : State ℕ Event}

/-- The states of an indexed call of consumer `i` which runs alone from `s₀`. -/
structure Consuming (g : Geometry) (initial i maxCount : ℕ) (s₀ s : State ℕ Event) :
    Prop where
  reachable : (machine Event g.unbounded g initial).Reachable s
  producer : s.producer = s₀.producer
  others : ∀ j, j ≠ i → s.consumer j = s₀.consumer j
  handle : (s.consumer i).handle = none
  course : (s.consumer i).Course maxCount
    (s₀.producer.published.current - (s₀.consumer i).released.current) (s₀.consumer i)
    (s.consumer i).pc

theorem Consuming.resumeConsumer (h : Consuming g initial i maxCount s₀ s)
    (hi : i < g.consumerCount) (hstep : s.resumeConsumer g.unbounded g i = some s') :
  Consuming g initial i maxCount s₀ s'
  := by
  have hs := inv_of_reachable h.reachable
  have hreachable := reachable_of_step h.reachable hstep
  obtain ⟨c, hc, rfl⟩ := step_consumer.mp hstep
  have hcourse := h.course
  rw [← h.producer] at hcourse
  constructor
  · apply hreachable
  · apply h.producer
  · intro j hj
    simp only [Function.update_of_ne hj]
    apply h.others j hj
  · simp only [Function.update_self]
    apply Consumer.handle_resume h.handle hc
  · simp only [Function.update_self]
    rw [← h.producer]
    apply hcourse.resume (hs.consumer i hi) hc

omit [Inhabited Event] in
/-- A call under way has a next step. -/
theorem Inv.exists_resumeConsumer (hs : s.Inv g initial) (hi : i < g.consumerCount)
    (hpc : (s.consumer i).pc ≠ .idle) :
  ∃ s', s.resumeConsumer g.unbounded g i = some s'
  := by
  have hview := (hs.consumer i hi).view_le
  have hresume : ∃ c, (s.consumer i).resume g.unbounded g s.producer.events
      s.producer.published s.producer.published.last = some c := by
    rw [Consumer.resume]
    cases h : (s.consumer i).pc with
    | idle => cases hpc h
    | loadPublished first m =>
        simp only [Location.load_last hview, Option.map_some, Option.some.injEq, exists_eq']
    | _ => simp only [Option.some.injEq, exists_eq']
  obtain ⟨c, hc⟩ := hresume
  use { s with consumer := Function.update s.consumer i c }
  apply step_consumer.mpr
  use c, hc

/-- An indexed call which runs alone returns. -/
theorem Consuming.returnConsumer (h : Consuming g initial i maxCount s₀ s)
    (hi : i < g.consumerCount) :
  Consuming g initial i maxCount s₀ (s.returnConsumer g.unbounded g i)
    ∧ ((s.returnConsumer g.unbounded g i).consumer i).pc = .idle
  := by
  apply TransitionSystem.settle_done (fun t => (t.consumer i).pc = .idle)
    (fun t => Consumer.remaining (t.consumer i).pc) _ _ h le_rfl
  · intro t ht hpc
    obtain ⟨t', hstep⟩ := (inv_of_reachable ht.reachable).exists_resumeConsumer hi hpc
    use t', hstep, ht.resumeConsumer hi hstep
    obtain ⟨c, hc, rfl⟩ := step_consumer.mp hstep
    simp only [Function.update_self]
    apply Consumer.remaining_resume hc
  · intro t hpc
    simp only [State.resumeConsumer, State.step, Consumer.step, Consumer.resume, hpc,
      Option.map_none]

end State

/-! ### The refinement -/

/-- The state of the machine, between operations, that stands for a log. -/
structure Refines (g : Geometry) (initialPosition : SequenceType) (log : MulticastLog Event)
    (s : State ℕ Event) : Prop where
  reachable : (machine Event g.unbounded g initialPosition.toNat).Reachable s
  producer_idle : s.producer.pc = .idle
  consumer_idle : ∀ i, (s.consumer i).pc = .idle
  handle : ∀ i, (s.consumer i).handle = none
  entries : s.producer.written = log.entries
  offset : ∀ i < g.consumerCount,
    (s.released i).current = initialPosition.toNat + log.offset i
  session : s.producer.session.isSome = log.session
  shells : s.producer.movedFrom.length = log.shells

namespace Refines

open State

variable {initialPosition : SequenceType} {log : MulticastLog Event} {s s₁ : State ℕ Event}

/-- The published position stands for the length of the log. -/
theorem published_eq (h : Refines g initialPosition log s) :
  s.producer.published.current = initialPosition.toNat + log.entries.length
  := by
  have hlength := (inv_of_reachable h.reachable).producer.log.length
  rw [h.producer_idle, h.entries] at hlength
  simp only [Producer.progress] at hlength
  omega

theorem next_eq (h : Refines g initialPosition log s) :
  s.producer.state.nextToPublish = initialPosition.toNat + log.entries.length
  := by
  have hnext := (inv_of_reachable h.reachable).producer.next_eq
  rw [h.producer_idle, h.published_eq] at hnext
  apply hnext

/-- A lag on words is the number of events of the log the consumer has not reached. -/
theorem hasRoom_iff (h : Refines g initialPosition log s) {count : ℕ} :
  HasRoom g (s.map toWord).producer.state.nextToPublish count (s.map toWord)
    ↔ log.HasRoom g count
  := by
  have hs := inv_of_reachable h.reachable
  have hcapacity := g.capacity_lt
  have hlag : ∀ i < g.consumerCount,
      (s.map toWord).lag g.wrapping (s.map toWord).producer.state.nextToPublish i
        = log.entries.length - log.offset i := by
    intro i hi
    have hle := hs.consumers.current_le i hi
    have hcurrent := hs.current_le_capacity hi
    have hoffset := h.offset i hi
    have hpublished := h.published_eq
    rw [lag, producer_map, Producer.state_map, ProducerState.nextToPublish_map,
      current_released_map, h.next_eq, g.wrapping_distance (by omega) (by omega),
      Geometry.unbounded_distance]
    omega
  constructor
  · intro hroom i hi
    rw [← hlag i hi]
    apply hroom i hi
  · intro hroom i hi
    rw [hlag i hi]
    apply hroom i hi

/-- The handler of a consumer has been called on the events before its offset. -/
theorem handled_eq (h : Refines g initialPosition log s) {i : ℕ} (hi : i < g.consumerCount) :
  (s.consumer i).handled
    = (stream g.unbounded initialPosition.toNat log.entries).take (log.offset i)
      ∧ log.offset i ≤ log.entries.length
  := by
  obtain ⟨n, hn, hle, hhandled⟩ := ((inv_of_reachable h.reachable).consumer i hi).handled
  have hoffset : (s.consumer i).released.current = initialPosition.toNat + log.offset i :=
    h.offset i hi
  rw [h.consumer_idle i] at hn
  simp only [Consumer.done] at hn
  obtain rfl : n = log.offset i := by omega
  rw [h.entries] at hhandled hle
  use hhandled

/-- The states on words that stand for a log. -/
def Words (g : Geometry) (initialPosition : SequenceType) (log : MulticastLog Event)
    (t : State SequenceType Event) : Prop :=
  ∃ s, Refines g initialPosition log s ∧ s.map toWord = t

/-! ### Publication -/

omit [Inhabited Event] in
theorem returnProducer_map {initial : ℕ} (hs : s.Inv g initial) :
  (s.map toWord).returnProducer g.wrapping g = (s.returnProducer g.unbounded g).map toWord
  := by
  rw [returnProducer, returnProducer, producer_map, Producer.pc_map, Producer.remaining_map]
  apply TransitionSystem.settle_map (I := Inv g initial) _ _ hs
  · intro s t hs h
    apply hs.step (a := .producer (.resume s.currentPlace)) h
  · intro s hs
    apply hs.map_callStep

/-- The log with other entries stands for a state which has written them. -/
theorem published (h : Refines g initialPosition log s) {entries : List Event}
    (hreachable : (machine Event g.unbounded g initialPosition.toNat).Reachable s₁)
    (hidle : s₁.producer.pc = .idle) (hconsumer : s₁.consumer = s.consumer)
    (hentries : s₁.producer.written = entries)
    (hsession : s₁.producer.session.isSome = s.producer.session.isSome)
    (hmovedFrom : s₁.producer.movedFrom = s.producer.movedFrom) :
  Refines g initialPosition { log with entries := entries } s₁
  := by
  constructor
  · apply hreachable
  · apply hidle
  · rw [hconsumer]
    apply h.consumer_idle
  · rw [hconsumer]
    apply h.handle
  · apply hentries
  · simp only [released, hconsumer]
    apply h.offset
  · rw [hsession, h.session]
  · rw [hmovedFrom, h.shells]

/-- The answer of a publication which has returned `result`. -/
theorem agree_published {returned : List Bool} {result : Bool}
    (h : Refines g initialPosition log s)
    (hreturned : s.producer.returned = returned ++ [result]) :
  Service.Agree (Words g initialPosition)
    (some ((Response.published result : Response SequenceType Event), log))
    (some (Response.published ((s.map toWord).producer.returned.getLastD false), s.map toWord))
  := by
  have hresult : (s.map toWord).producer.returned.getLastD false = result := by
    rw [producer_map, Producer.map, hreturned]
    simp
  rw [hresult]
  constructor
  use s

/-- A publication answers as the log does. -/
theorem performPublish (h : Refines g initialPosition log s) {count : ℕ}
    {writer : Writer Event} {a : ProducerAction Event}
    (ha : a = .publish count writer ∨ a = .publishHandle count writer)
    (hstep : s.step g.unbounded g (.producer a) = some s₁) :
  Service.Agree (Words g initialPosition) (some (log.publish g count writer))
    ((s.map toWord).performPublish g.wrapping g a)
  := by
  have hreachable := reachable_of_step h.reachable hstep
  have hreturn := returnProducer_map (inv_of_reachable hreachable)
  have hfirst := step_publish ha hstep
  rw [State.performPublish, (inv_of_reachable h.reachable).map_step, hstep, Option.map_some,
    Option.map_some, MulticastLog.publish]
  dsimp only
  rw [hreturn]
  by_cases hzero : count = 0
  · rw [if_pos hzero]
    rw [Producer.tryPublishBatch, if_pos hzero] at hfirst
    subst hfirst
    apply agree_published (h.published hreachable rfl rfl h.entries rfl rfl)
    rfl
  · rw [if_neg hzero]
    by_cases hcapacity : count > g.capacity
    · rw [if_pos hcapacity]
      rw [Producer.tryPublishBatch, if_neg hzero, if_pos hcapacity] at hfirst
      subst hfirst
      apply agree_published (h.published hreachable rfl rfl h.entries rfl rfl)
      rfl
    · rw [if_neg hcapacity]
      have hbegin := publishing_begin h.reachable (by omega) (by omega) ha hstep
      obtain ⟨hend, hidle⟩ := hbegin.returnProducer
      rcases hend.result hidle with ⟨hroom, hreturned, hwritten⟩ | ⟨hroom, hreturned, hwritten⟩
      · rw [h.entries] at hwritten
        rw [if_pos (h.hasRoom_iff.mp hroom)]
        apply agree_published _ hreturned
        apply h.published hend.reachable hidle hend.consumer hwritten hend.session hend.movedFrom
      · rw [h.entries] at hwritten
        rw [if_neg (fun hlog => hroom (h.hasRoom_iff.mpr hlog))]
        apply agree_published _ hreturned
        apply h.published hend.reachable hidle hend.consumer hwritten hend.session hend.movedFrom

/-! ### Consumption -/

omit [Inhabited Event] in
theorem returnConsumer_map {initial i : ℕ} (hs : s.Inv g initial) :
  (s.map toWord).returnConsumer g.wrapping g i = (s.returnConsumer g.unbounded g i).map toWord
  := by
  have hremaining : Consumer.remaining ((s.map toWord).consumer i).pc
      = Consumer.remaining (s.consumer i).pc := Consumer.remaining_map toWord _
  rw [returnConsumer, returnConsumer, hremaining]
  apply TransitionSystem.settle_map (I := Inv g initial) _ _ hs
  · intro s t hs h
    apply hs.step (a := .consumer i (.resume s.producer.published.last)) h
  · intro s hs
    apply hs.map_step

/-- The answer of an indexed call which has returned `count`. -/
theorem agree_consumed {i count : ℕ} {returned : List ℕ} {events : List (Event × SequenceType)}
    {handled : List (Event × SequenceType)} (h : Refines g initialPosition log s)
    (hreturned : (s.consumer i).returned = returned ++ [count])
    (hhandled : (s.consumer i).handled.map (Prod.map id toWord) = handled ++ events) :
  Service.Agree (Words g initialPosition) (some (Response.consumed count events, log))
    (some (Response.consumed (((s.map toWord).consumer i).returned.getLastD 0)
      (((s.map toWord).consumer i).handled.drop handled.length), s.map toWord))
  := by
  have hcount : ((s.map toWord).consumer i).returned.getLastD 0 = count := by
    simp only [State.map, Consumer.map, hreturned]
    simp
  have hevents : ((s.map toWord).consumer i).handled.drop handled.length = events := by
    simp only [State.map, Consumer.map, hhandled, List.drop_left']
  rw [hcount, hevents]
  constructor
  use s

/-- The log with the offset of a consumer advanced. -/
theorem consumed (h : Refines g initialPosition log s) {i count : ℕ}
    (hreachable : (machine Event g.unbounded g initialPosition.toNat).Reachable s₁)
    (hproducer : s₁.producer = s.producer)
    (hothers : ∀ j, j ≠ i → s₁.consumer j = s.consumer j)
    (hidle : (s₁.consumer i).pc = .idle) (hhandle : (s₁.consumer i).handle = none)
    (hreleased : (s₁.consumer i).released.current = (s.consumer i).released.current + count) :
  Refines g initialPosition
    { log with offset := Function.update log.offset i (log.offset i + count) } s₁
  := by
  constructor
  · apply hreachable
  · rw [hproducer]
    apply h.producer_idle
  · intro j
    by_cases hj : j = i
    · subst hj
      apply hidle
    · rw [hothers j hj]
      apply h.consumer_idle
  · intro j
    by_cases hj : j = i
    · subst hj
      apply hhandle
    · rw [hothers j hj]
      apply h.handle
  · rw [hproducer]
    apply h.entries
  · intro j hj
    have hoffset : (s.consumer j).released.current = initialPosition.toNat + log.offset j :=
      h.offset j hj
    by_cases hji : j = i
    · subst hji
      rw [released, hreleased, hoffset]
      simp only [Function.update_self]
      omega
    · rw [released, hothers j hji, hoffset]
      simp only [Function.update_of_ne hji]
  · rw [hproducer]
    apply h.session
  · rw [hproducer]
    apply h.shells

/-- The first step of an indexed call of a registered consumer, and what it leads to. -/
theorem consuming_begin (h : Refines g initialPosition log s) {i maxCount : ℕ}
    (hi : i < g.consumerCount)
    (hstep : s.step g.unbounded g (.consumer i (.consume maxCount)) = some s₁) :
  Consuming g initialPosition.toNat i maxCount s s₁
  := by
  have hreachable := reachable_of_step h.reachable hstep
  obtain ⟨c, hc, rfl⟩ := step_consumer.mp hstep
  simp only [Consumer.step, h.consumer_idle i, h.handle i] at hc
  constructor
  · apply hreachable
  · rfl
  · intro j hj
    simp only [Function.update_of_ne hj]
  · simp only [Function.update_self]
    split_ifs at hc
    all_goals
      obtain rfl := Option.some.inj hc
      apply h.handle i
  · simp only [Function.update_self]
    split_ifs at hc with hzero
    · obtain rfl := Option.some.inj hc
      obtain rfl : maxCount = 0 := by omega
      simp only [Consumer.finish, Consumer.Course, Nat.zero_min, Nat.add_zero, and_self]
    · obtain rfl := Option.some.inj hc
      exact ⟨rfl, rfl, rfl⟩

omit [Inhabited Event] in
/-- The events between two offsets. -/
theorem map_stream_take (entries : List Event) (initialPosition : SequenceType)
    (offset count : ℕ) :
  ((stream g.unbounded initialPosition.toNat entries).take (offset + count)).map
      (Prod.map id toWord)
    = (((stream g.unbounded initialPosition.toNat entries).take offset).map (Prod.map id toWord))
      ++ ((stream g.wrapping initialPosition entries).drop offset).take count
  := by
  have hstream := stream_wrapping g initialPosition.toNat entries
  rw [toWord_toNat] at hstream
  rw [hstream, List.map_take, List.map_take, List.take_add]

/-- An indexed call answers as the log does. -/
theorem performConsume (h : Refines g initialPosition log s) (i maxCount : ℕ) :
  Service.Agree (Words g initialPosition)
    (some (log.consume g.wrapping g initialPosition i maxCount))
    ((s.map toWord).performConsume g.wrapping g i maxCount)
  := by
  have hs := inv_of_reachable h.reachable
  obtain ⟨s₁, hstep⟩ : ∃ s₁, s.step g.unbounded g (.consumer i (.consume maxCount)) = some s₁ := by
    simp only [State.step, Consumer.step, h.consumer_idle i, h.handle i]
    split_ifs
    all_goals simp only [Option.map_some, Option.some.injEq, exists_eq']
  have hreturn := returnConsumer_map (i := i)
    (inv_of_reachable (reachable_of_step h.reachable hstep))
  rw [State.performConsume, hs.map_step, hstep, Option.map_some, Option.map_some,
    MulticastLog.consume]
  dsimp only
  rw [hreturn]
  have hlength : ((s.map toWord).consumer i).handled.length
      = ((s.consumer i).handled.map (Prod.map id toWord)).length := rfl
  rw [hlength]
  by_cases hi : i < g.consumerCount
  · obtain ⟨hend, hidle⟩ := (h.consuming_begin hi hstep).returnConsumer hi
    obtain ⟨hhandled, hoffset⟩ := h.handled_eq hi
    have hreleased : (s.consumer i).released.current
        = initialPosition.toNat + log.offset i := h.offset i hi
    have havailable : s.producer.published.current - (s.consumer i).released.current
        = log.entries.length - log.offset i := by
      rw [h.published_eq, hreleased]
      omega
    have hcourse := hend.course
    rw [hidle, havailable] at hcourse
    obtain ⟨hreturned, hcurrent⟩ := hcourse
    have hrefines := h.consumed hend.reachable hend.producer hend.others hidle hend.handle hcurrent
    obtain ⟨hhandled', -⟩ := hrefines.handled_eq hi
    simp only [Function.update_self] at hhandled'
    rw [if_pos hi]
    apply agree_consumed hrefines hreturned
    rw [hhandled, hhandled', map_stream_take]
  · rw [if_neg hi]
    obtain ⟨c, hc, rfl⟩ := step_consumer.mp hstep
    simp only [Consumer.step, h.consumer_idle i, h.handle i] at hc
    rw [if_pos (Or.inl (Nat.le_of_not_lt hi))] at hc
    obtain rfl := Option.some.inj hc
    have hreachable := reachable_of_step h.reachable hstep
    have hidle : ((Function.update s.consumer i ((s.consumer i).finish 0)) i).pc = .idle := by
      rw [Function.update_self]
      rfl
    have hrefines : Refines g initialPosition
        { log with offset := Function.update log.offset i (log.offset i + 0) }
        { s with consumer := Function.update s.consumer i ((s.consumer i).finish 0) } := by
      apply h.consumed hreachable rfl _ hidle
      · simp only [Function.update_self]
        apply h.handle i
      · simp only [Function.update_self]
        rfl
      · intro j hj
        simp only [Function.update_of_ne hj]
    rw [Nat.add_zero, Function.update_eq_self] at hrefines
    rw [returnConsumer, hidle]
    apply agree_consumed hrefines
    · simp only [Function.update_self]
      rfl
    · simp only [Function.update_self, List.append_nil]
      rfl

/-! ### Sessions -/

/-- An operation on the handles answers as the log does. -/
theorem performSession (h : Refines g initialPosition log s) {a : ProducerAction Event}
    {session : Bool} {shells : ℕ} (hstep : s.step g.unbounded g (.producer a) = some s₁)
    (hidle : s₁.producer.pc = .idle) (hwritten : s₁.producer.written = s.producer.written)
    (hsession : s₁.producer.session.isSome = session)
    (hshells : s₁.producer.movedFrom.length = shells) :
  Service.Agree (Words g initialPosition)
    (some (.done, { log with session := session, shells := shells }))
    ((s.map toWord).performSession g.wrapping g a)
  := by
  have hreachable := reachable_of_step h.reachable hstep
  rw [State.performSession, (inv_of_reachable h.reachable).map_step, hstep, Option.map_some,
    Option.map_some]
  constructor
  refine ⟨s₁, ?_, rfl⟩
  have hconsumer : s₁.consumer = s.consumer := by
    obtain ⟨p, -, rfl⟩ := step_producer.mp hstep
    rfl
  constructor
  · apply hreachable
  · apply hidle
  · rw [hconsumer]
    apply h.consumer_idle
  · rw [hconsumer]
    apply h.handle
  · rw [hwritten, h.entries]
  · simp only [released, hconsumer]
    apply h.offset
  · apply hsession
  · apply hshells

/-- A publication the machine refuses. -/
theorem refuse_publish (h : Refines g initialPosition log s) {a : ProducerAction Event}
    (hstep : s.step g.unbounded g (.producer a) = none) :
  (s.map toWord).performPublish g.wrapping g a = none
  := by
  rw [State.performPublish, (inv_of_reachable h.reachable).map_step, hstep]
  rfl

/-- An operation on the handles the machine refuses. -/
theorem refuse_session (h : Refines g initialPosition log s) {a : ProducerAction Event}
    (hstep : s.step g.unbounded g (.producer a) = none) :
  (s.map toWord).performSession g.wrapping g a = none
  := by
  rw [State.performSession, (inv_of_reachable h.reachable).map_step, hstep]
  rfl

/-- The published position of the machine and that of the log. -/
theorem publishedPosition_eq (h : Refines g initialPosition log s) :
  toWord s.producer.published.current
    = g.wrapping.advance initialPosition log.entries.length
  := by
  rw [h.published_eq, toWord_add, toWord_toNat]
  rfl

/-- A session of the machine is one of the log. -/
theorem session_cases (h : Refines g initialPosition log s) :
  (s.producer.session = none ∧ log.session = false)
    ∨ ∃ handle, s.producer.session = some handle ∧ log.session = true
  := by
  have hopen := h.session
  cases hsession : s.producer.session with
  | none =>
      left
      rw [hsession] at hopen
      exact ⟨rfl, hopen.symm⟩
  | some handle =>
      right
      rw [hsession] at hopen
      exact ⟨handle, rfl, hopen.symm⟩

/-- Every operation answers as the log does. -/
theorem perform (h : Refines g initialPosition log s) (op : Operation Event) :
  Service.Agree (Words g initialPosition) (log.perform g.wrapping g initialPosition op)
    ((s.map toWord).perform g.wrapping g op)
  := by
  have hidle := h.producer_idle
  cases op with
  | publish count writer =>
      simp only [MulticastLog.perform, State.perform]
      rcases h.session_cases with ⟨hsession, hlog⟩ | ⟨handle, hsession, hlog⟩
      · rw [hlog]
        apply h.performPublish (Or.inl rfl)
        simp only [State.step, Producer.step, hidle, hsession]
        rfl
      · rw [hlog, h.refuse_publish]
        · constructor
        · simp only [State.step, Producer.step, hidle, hsession, Option.map_none]
  | publishHandle count writer =>
      simp only [MulticastLog.perform, State.perform]
      rcases h.session_cases with ⟨hsession, hlog⟩ | ⟨handle, hsession, hlog⟩
      · rw [hlog, h.refuse_publish]
        · constructor
        · simp only [State.step, Producer.step, hidle, hsession, Option.map_none]
      · rw [hlog]
        apply h.performPublish (Or.inr rfl)
        simp only [State.step, Producer.step, hidle, hsession]
        rfl
  | makeProducer =>
      simp only [MulticastLog.perform, State.perform]
      rcases h.session_cases with ⟨hsession, hlog⟩ | ⟨handle, hsession, hlog⟩
      · rw [hlog]
        apply h.performSession
        · simp only [State.step, Producer.step, hidle, hsession]
          rfl
        · rfl
        · rfl
        · rfl
        · apply h.shells
      · rw [hlog, h.refuse_session]
        · constructor
        · simp only [State.step, Producer.step, hidle, hsession, Option.map_none]
  | moveHandle =>
      simp only [MulticastLog.perform, State.perform]
      rcases h.session_cases with ⟨hsession, hlog⟩ | ⟨handle, hsession, hlog⟩
      · rw [hlog, h.refuse_session]
        · constructor
        · simp only [State.step, Producer.step, hidle, hsession, Option.map_none]
      · rw [hlog]
        apply h.performSession
        · simp only [State.step, Producer.step, hidle, hsession]
          rfl
        · rfl
        · rfl
        · rfl
        · simp only [List.length_append, List.length_singleton, h.shells]
  | destroyHandle =>
      simp only [MulticastLog.perform, State.perform]
      rcases h.session_cases with ⟨hsession, hlog⟩ | ⟨handle, hsession, hlog⟩
      · rw [hlog, h.refuse_session]
        · constructor
        · simp only [State.step, Producer.step, hidle, hsession, Option.map_none]
      · rw [hlog]
        apply h.performSession
        · simp only [State.step, Producer.step, hidle, hsession]
          rfl
        · rfl
        · rfl
        · rfl
        · apply h.shells
  | destroyMovedFrom place =>
      simp only [MulticastLog.perform, State.perform]
      rw [← h.shells]
      split
      case isTrue hlt =>
        apply h.performSession
        · simp only [State.step, Producer.step, hidle, List.getElem?_eq_getElem hlt]
          rfl
        · rfl
        · rfl
        · apply h.session
        · simp only [List.length_eraseIdx, if_pos hlt]
      case isFalse hge =>
        rw [h.refuse_session]
        · constructor
        · simp only [State.step, Producer.step, hidle,
            List.getElem?_eq_none (Nat.le_of_not_lt hge), Option.map_none]
  | handlePosition =>
      simp only [MulticastLog.perform, State.perform]
      rw [producer_map, Producer.session_map]
      rcases h.session_cases with ⟨hsession, hlog⟩ | ⟨handle, hsession, hlog⟩
      · rw [hlog, hsession]
        constructor
      · have hnext := h.next_eq
        rw [Producer.state, hsession, ← h.published_eq] at hnext
        have hposition : toWord handle.state.nextToPublish
            = g.wrapping.advance initialPosition log.entries.length := by
          rw [← h.publishedPosition_eq, ← hnext]
        simp only [hlog, hsession, if_true, Option.map_some, ProducerHandle.map,
          ProducerState.map, hposition]
        constructor
        use s
  | consume i maxCount => apply h.performConsume
  | publishedPosition =>
      simp only [MulticastLog.perform, State.perform]
      rw [← h.publishedPosition_eq]
      constructor
      use s
  | consumerPosition i =>
      simp only [MulticastLog.perform, State.perform, consumerPosition]
      by_cases hi : i < g.consumerCount
      · have hposition : toWord (s.released i).current
            = g.wrapping.advance initialPosition (log.offset i) := by
          rw [h.offset i hi, toWord_add, toWord_toNat]
          rfl
        rw [if_pos hi, if_neg (Nat.not_le_of_lt hi), ← hposition]
        constructor
        use s
      · rw [if_neg hi, if_pos (Nat.le_of_not_lt hi)]
        constructor
        use s

/-- A disruptor stands for the empty log when it is constructed. -/
theorem refines_init (g : Geometry) (initialPosition : SequenceType) :
  Refines g initialPosition (MulticastLog.empty : MulticastLog Event)
    (init g initialPosition.toNat)
  := by
  constructor
  · apply TransitionSystem.Reachable.initial
  · rfl
  · intro i
    rfl
  · intro i
    rfl
  · rfl
  · intro i _
    rfl
  · rfl
  · rfl

end Refines

/-- Run on one thread, the disruptor is a bounded multicast log. To every list of operations,
direct and through the handles of successive sessions, it gives the responses of the log: the
same results, the same calls of the handlers and the same positions. -/
theorem implements_multicast_log (g : Geometry) (initialPosition : SequenceType)
    (operations : List (Operation Event)) :
  Service.responses (State.perform g.wrapping g) operations (State.init g initialPosition)
    = Service.responses (MulticastLog.perform g.wrapping g initialPosition) operations
        MulticastLog.empty
  := by
  symm
  apply Service.responses_eq (R := Refines.Words g initialPosition)
  · rintro log t op ⟨s, h, rfl⟩
    apply h.perform op
  · refine ⟨State.init g initialPosition.toNat, Refines.refines_init g initialPosition, ?_⟩
    rw [State.init_map, toWord_toNat]

end Disruptor
