import LowLatency.Disruptor.Machine
import Mathlib.Algebra.BigOperators.Group.List.Basic

/-!
# The invariant of the producer

On unbounded positions, where the cursors of the consumers are `released`, the producer
keeps its private position at the published position, ahead of it only by a batch it is
about to publish, and its capacity cache within what the cursor values it has last read
allow. The last `capacity` events written are in their slots.

The cursors enter only through the values the producer has read, so the consumers may
store their cursors without disturbing the invariant.
-/

namespace Disruptor

namespace Producer

section Projections

variable {P Event : Type} (p : Producer P Event)

@[simp]
theorem state_setState (state : ProducerState P) :
  (p.setState state).state = state
  := by
  cases h : p.session with
  | none => simp [setState, Producer.state, h]
  | some _ => simp [setState, Producer.state, h]

@[simp]
theorem state_observe (i place : ℕ) :
  (p.observe i place).state = p.state
  := rfl

@[simp]
theorem state_goto (pc : ProducerPc P Event) :
  (p.goto pc).state = p.state
  := rfl

@[simp]
theorem state_finish (result : Bool) :
  (p.finish result).state = p.state
  := rfl

@[simp]
theorem state_put (slot : ℕ) (event : Event) :
  (p.put slot event).state = p.state
  := rfl

@[simp]
theorem views_setState (state : ProducerState P) :
  (p.setState state).views = p.views
  := rfl

end Projections

/-! ### The next step of a publication -/

section Resumed

variable {P Event : Type} {A : PositionArithmetic P} {g : Geometry}
  {released : ℕ → Location P} {p p' : Producer P Event} {place : ℕ}

/-- What the next step of a publication can do, by where the producer stands. -/
inductive Resumed (A : PositionArithmetic P) (g : Geometry) (released : ℕ → Location P)
    (p : Producer P Event) (place : ℕ) : Producer P Event → Prop where
  | loadBlocker (count : ℕ) (writer : Writer Event) (position : P)
      (hpc : p.pc = .loadBlocker count writer)
      (hload : (released p.state.blockingConsumer).load (p.views p.state.blockingConsumer) place
        = some position) :
      Resumed A g released p place (p.loadBlocker A g count writer place position)
  | skipScanned (count : ℕ) (writer : Writer Event) (greatestLag greatestLagIndex : ℕ)
      (hpc : p.pc =
        .scan count writer p.state.blockingConsumer greatestLag greatestLagIndex)
      (hindex : p.state.blockingConsumer < g.consumerCount) :
      Resumed A g released p place (p.goto
        (.scan count writer (p.state.blockingConsumer + 1) greatestLag greatestLagIndex))
  | loadScanned (count : ℕ) (writer : Writer Event) (index greatestLag greatestLagIndex : ℕ)
      (position : P) (hpc : p.pc = .scan count writer index greatestLag greatestLagIndex)
      (hindex : index < g.consumerCount)
      (hload : (released index).load (p.views index) place = some position) :
      Resumed A g released p place
        (p.loadScanned A g count writer index greatestLag greatestLagIndex place position)
  | endScan (count : ℕ) (writer : Writer Event) (index greatestLag greatestLagIndex : ℕ)
      (hpc : p.pc = .scan count writer index greatestLag greatestLagIndex)
      (hindex : g.consumerCount ≤ index) :
      Resumed A g released p place (p.endScan g count writer greatestLag greatestLagIndex)
  | write (count : ℕ) (writer : Writer Event) (first : P) (index : ℕ)
      (hpc : p.pc = .write count writer first index) :
      Resumed A g released p place (p.write A g count writer first index)
  | store (count : ℕ) (hpc : p.pc = .store count) :
      Resumed A g released p place p.store

theorem resumed_of_resume (h : p.resume A g released place = some p') :
  Resumed A g released p place p'
  := by
  cases hpc : p.pc with
  | idle =>
      rw [resume, hpc] at h
      cases h
  | loadBlocker count writer =>
      rw [resume, hpc] at h
      obtain ⟨position, hload, rfl⟩ := Option.map_eq_some_iff.mp h
      apply Resumed.loadBlocker count writer position hpc hload
  | scan count writer index greatestLag greatestLagIndex =>
      rw [resume, hpc] at h
      dsimp only at h
      split_ifs at h with hindex hblocker
      · obtain rfl := Option.some.inj h
        subst hblocker
        apply Resumed.skipScanned count writer greatestLag greatestLagIndex hpc hindex
      · obtain ⟨position, hload, rfl⟩ := Option.map_eq_some_iff.mp h
        apply Resumed.loadScanned count writer index greatestLag greatestLagIndex position hpc
          hindex hload
      · obtain rfl := Option.some.inj h
        apply Resumed.endScan count writer index greatestLag greatestLagIndex hpc
        apply Nat.le_of_not_lt hindex
  | write count writer first index =>
      rw [resume, hpc] at h
      obtain rfl := Option.some.inj h
      apply Resumed.write count writer first index hpc
  | store count =>
      rw [resume, hpc] at h
      obtain rfl := Option.some.inj h
      apply Resumed.store count hpc

end Resumed

variable {Event : Type}

/-- The events of the batch in progress already written. -/
def progress {P : Type} : ProducerPc P Event → ℕ
  | .write _ _ _ index => index
  | .store count => count
  | _ => 0

/-- How far the private position is ahead of the published position. -/
def ahead {P : Type} : ProducerPc P Event → ℕ
  | .store count => count
  | _ => 0

/-- The size of the batch in progress, if one is admitted. -/
def pending {P : Type} : ProducerPc P Event → Option ℕ
  | .write count _ _ _ => some count
  | .store count => some count
  | _ => none

theorem progress_of_pending {P : Type} {pc : ProducerPc P Event} (h : pending pc = none) :
  progress pc = 0
  := by
  cases pc with
  | write => cases h
  | store => cases h
  | _ => rfl

theorem ahead_of_pending {P : Type} {pc : ProducerPc P Event} (h : pending pc = none) :
  ahead pc = 0
  := by
  cases pc with
  | write => cases h
  | store => cases h
  | _ => rfl

/-- The position of consumer `i` read at place `views i`. -/
def seen (released : ℕ → Location ℕ) (views : ℕ → ℕ) (i : ℕ) : ℕ :=
  (released i).value (views i)

/-- The slots and the published cursor hold what has been written and accepted, where
positions start at `initial`, and `progress` events of a batch of size `pending` are
written and not yet published. -/
structure LogInv (g : Geometry) (initial : ℕ) (events : ℕ → Event) (published : Location ℕ)
    (written : List Event) (accepted : List ℕ) (progress : ℕ) (pending : Option ℕ) : Prop where
  growing : published.Growing
  boundary : ∀ k ≤ published.last, published.value k = initial + (accepted.take k).sum
  last_le : published.last ≤ accepted.length
  pending : accepted.drop published.last = pending.toList
  length : initial + written.length = published.current + progress
  slots : ∀ k event, written[k]? = some event → written.length ≤ k + g.capacity →
    events ((initial + k) % g.capacity) = event

/-- The private state stays within what the cursor values last read allow. -/
structure CacheInv (g : Geometry) (released : ℕ → Location ℕ) (views : ℕ → ℕ)
    (state : ProducerState ℕ) : Prop where
  views_le : ∀ i < g.consumerCount, views i ≤ (released i).last
  room : ∀ i < g.consumerCount,
    state.availableBeforeRescan + state.nextToPublish ≤ g.capacity + seen released views i
  blocking : state.blockingConsumer < g.consumerCount

/-- What holds by where the producer stands in a publication. -/
def AtPc (g : Geometry) (released : ℕ → Location ℕ) (views : ℕ → ℕ)
    (state : ProducerState ℕ) : ProducerPc ℕ Event → Prop
  | .idle => True
  | .loadBlocker count _ => 0 < count ∧ count ≤ g.capacity
  | .scan count _ index greatestLag greatestLagIndex =>
      0 < count ∧ count ≤ g.capacity ∧ greatestLag ≤ g.capacity - count ∧
        greatestLagIndex < g.consumerCount ∧
        ∀ i < g.consumerCount, i < index ∨ i = state.blockingConsumer →
          state.nextToPublish ≤ seen released views i + greatestLag
  | .write count _ first index =>
      index < count ∧ first = state.nextToPublish ∧ count ≤ state.availableBeforeRescan
  | .store count => 0 < count

/-- The invariant of the producer, where positions start at `initial`. -/
structure Inv (g : Geometry) (initial : ℕ) (released : ℕ → Location ℕ)
    (p : Producer ℕ Event) : Prop where
  next_eq : p.state.nextToPublish = p.published.current + ahead p.pc
  log : LogInv g initial p.events p.published p.written p.accepted (progress p.pc) (pending p.pc)
  cache : CacheInv g released p.views p.state
  session : ∀ h ∈ p.session, h.owner = true
  movedFrom : ∀ h ∈ p.movedFrom, h.owner = false
  atPc : AtPc g released p.views p.state p.pc

variable {g : Geometry} {initial : ℕ} {released released' : ℕ → Location ℕ}
  {p p' : Producer ℕ Event}

/-! ### Stability under the consumers -/

section Stable

variable {views : ℕ → ℕ} {state : ProducerState ℕ}

/-- What the producer has read is not changed by later stores of the consumers. -/
theorem CacheInv.seen_of_extends (hc : CacheInv g released views state)
    (h : ∀ i < g.consumerCount, (released i).Extends (released' i)) {i : ℕ}
    (hi : i < g.consumerCount) :
  seen released' views i = seen released views i
  := (h i hi).value_eq (hc.views_le i hi)

theorem CacheInv.of_extends (hc : CacheInv g released views state)
    (h : ∀ i < g.consumerCount, (released i).Extends (released' i)) :
  CacheInv g released' views state
  := by
  constructor
  · intro i hi
    apply le_trans (hc.views_le i hi) (h i hi).last_le
  · intro i hi
    rw [hc.seen_of_extends h hi]
    apply hc.room i hi
  · apply hc.blocking

/-- What holds where the producer stands stays true when the values it has read are
replaced by larger ones. -/
theorem AtPc.of_seen_le {views' : ℕ → ℕ} {pc : ProducerPc ℕ Event}
    (hat : AtPc g released views state pc)
    (h : ∀ i < g.consumerCount, seen released views i ≤ seen released' views' i) :
  AtPc g released' views' state pc
  := by
  cases pc with
  | scan count writer index greatestLag greatestLagIndex =>
      obtain ⟨hpos, hcount, hlag, hindex, hscan⟩ := hat
      use hpos, hcount, hlag, hindex
      intro i hi hor
      apply le_trans (hscan i hi hor)
      apply Nat.add_le_add_right (h i hi)
  | _ => apply hat

/-- The invariant of the producer is stable under stores of the consumers. -/
theorem Inv.of_extends (hp : p.Inv g initial released)
    (h : ∀ i < g.consumerCount, (released i).Extends (released' i)) :
  p.Inv g initial released'
  := by
  constructor
  · apply hp.next_eq
  · apply hp.log
  · apply hp.cache.of_extends h
  · apply hp.session
  · apply hp.movedFrom
  · apply hp.atPc.of_seen_le
    intro i hi
    apply le_of_eq
    symm
    apply hp.cache.seen_of_extends h hi

end Stable

/-! ### Steps which leave the log -/

/-- A load of the cursor of consumer `i` reads at least what was last read from it. -/
theorem seen_le_observe {i place v : ℕ} (hg : (released i).Growing)
    (hl : (released i).load (p.views i) place = some v) (j : ℕ) :
  seen released p.views j ≤ seen released (p.observe i place).views j
  := by
  obtain ⟨hview, hlast, -⟩ := Location.load_eq_some_iff.mp hl
  by_cases hj : j = i
  · subst hj
    simp only [seen, observe, Function.update_self]
    apply hg hview hlast
  · simp only [seen, observe, Function.update_of_ne hj, le_refl]

theorem seen_observe {i place v : ℕ}
    (hl : (released i).load (p.views i) place = some v) :
  seen released (p.observe i place).views i = v
  := by
  obtain ⟨-, -, rfl⟩ := Location.load_eq_some_iff.mp hl
  simp only [seen, observe, Function.update_self]

/-- A load of the cursor of a consumer keeps the invariant. -/
theorem Inv.observe {i place v : ℕ} (hp : p.Inv g initial released)
    (hg : (released i).Growing) (hl : (released i).load (p.views i) place = some v) :
  (p.observe i place).Inv g initial released
  := by
  have hseen := seen_le_observe (p := p) hg hl
  constructor
  · apply hp.next_eq
  · apply hp.log
  · constructor
    · intro j hj
      by_cases hji : j = i
      · subst hji
        obtain ⟨-, hlast, -⟩ := Location.load_eq_some_iff.mp hl
        simpa only [Producer.observe, Function.update_self] using hlast
      · simpa only [Producer.observe, Function.update_of_ne hji] using hp.cache.views_le j hj
    · intro j hj
      apply le_trans (hp.cache.room j hj)
      apply Nat.add_le_add_left (hseen j)
    · apply hp.cache.blocking
  · apply hp.session
  · apply hp.movedFrom
  · apply hp.atPc.of_seen_le
    intro j _
    apply hseen j

/-- Between places where no batch is in progress the producer may move. -/
theorem Inv.goto (pc : ProducerPc ℕ Event) (hp : p.Inv g initial released)
    (hpc : pending p.pc = none) (hpc' : pending pc = none)
    (hat : AtPc g released p.views p.state pc) :
  (p.goto pc).Inv g initial released
  := by
  have hnext := hp.next_eq
  have hlog := hp.log
  rw [ahead_of_pending hpc] at hnext
  rw [progress_of_pending hpc, hpc] at hlog
  constructor
  · rw [Producer.goto, ahead_of_pending hpc']
    apply hnext
  · rw [Producer.goto, progress_of_pending hpc', hpc']
    apply hlog
  · apply hp.cache
  · apply hp.session
  · apply hp.movedFrom
  · apply hat

/-- A publication which returns with no batch in progress keeps the invariant. -/
theorem Inv.finish {result : Bool} (hp : p.Inv g initial released)
    (hpc : pending p.pc = none) :
  (p.finish result).Inv g initial released
  := by
  have hidle := hp.goto .idle hpc rfl trivial
  use hidle.next_eq, hidle.log, hidle.cache, hidle.session, hidle.movedFrom
  apply hidle.atPc

/-- The private state may be replaced by one with the same position. -/
theorem Inv.setState (state : ProducerState ℕ) (hp : p.Inv g initial released)
    (hnext : state.nextToPublish = p.state.nextToPublish)
    (hcache : CacheInv g released p.views state)
    (hat : AtPc g released p.views state p.pc) :
  (p.setState state).Inv g initial released
  := by
  constructor
  · rw [state_setState, hnext]
    apply hp.next_eq
  · apply hp.log
  · rw [state_setState]
    apply hcache
  · intro h hh
    obtain ⟨h', hh', rfl⟩ := Option.map_eq_some_iff.mp hh
    apply hp.session h' hh'
  · apply hp.movedFrom
  · rw [state_setState]
    apply hat

/-- A batch which fits in the capacity cache may be admitted. -/
theorem Inv.accept {count : ℕ} {writer : Writer Event} (hp : p.Inv g initial released)
    (hpc : pending p.pc = none) (hpos : 0 < count)
    (hcount : count ≤ p.state.availableBeforeRescan) :
  (p.accept count writer).Inv g initial released
  := by
  have hnext := hp.next_eq
  have hlog := hp.log
  rw [ahead_of_pending hpc] at hnext
  rw [progress_of_pending hpc, hpc] at hlog
  have hlast : p.published.last = p.accepted.length := by
    apply Nat.le_antisymm hlog.last_le
    apply List.drop_eq_nil_iff.mp hlog.pending
  constructor
  · apply hnext
  · constructor
    · apply hlog.growing
    · intro k hk
      simp only [Producer.accept] at hk ⊢
      rw [List.take_append_of_le_length (by omega)]
      apply hlog.boundary k hk
    · simp only [Producer.accept, List.length_append]
      omega
    · simp only [Producer.accept, pending, Option.toList_some, hlast, List.drop_left']
    · apply hlog.length
    · apply hlog.slots
  · apply hp.cache
  · apply hp.session
  · apply hp.movedFrom
  · use hpos, rfl
    apply hcount

/-! ### The steps of a publication -/

/-- What the producer relies on: each consumer only advances, up to the published
position. -/
structure Consumers (g : Geometry) (released : ℕ → Location ℕ) (published : Location ℕ) :
    Prop where
  growing : ∀ i < g.consumerCount, (released i).Growing
  current_le : ∀ i < g.consumerCount, (released i).current ≤ published.current

/-- The producer has read no consumer beyond its own position. -/
theorem Inv.seen_le (hp : p.Inv g initial released) (hc : Consumers g released p.published)
    {i : ℕ} (hi : i < g.consumerCount) :
  seen released p.views i ≤ p.state.nextToPublish
  := by
  have hview := (hc.growing i hi).le_current (hp.cache.views_le i hi)
  have hcurrent := hc.current_le i hi
  have hnext := hp.next_eq
  simp only [seen]
  omega

/-- The capacity cache is at most the capacity. -/
theorem Inv.available_le (hp : p.Inv g initial released)
    (hc : Consumers g released p.published) :
  p.state.availableBeforeRescan ≤ g.capacity
  := by
  have hroom := hp.cache.room _ hp.cache.blocking
  have hseen := hp.seen_le hc hp.cache.blocking
  omega

theorem Inv.tryPublishBatch {count : ℕ} {writer : Writer Event}
    (hp : p.Inv g initial released) (hpc : pending p.pc = none) :
  (p.tryPublishBatch g count writer).Inv g initial released
  := by
  rw [Producer.tryPublishBatch]
  split_ifs with hzero hcapacity havailable
  · apply hp.finish hpc
  · apply hp.finish hpc
  · apply hp.goto _ hpc rfl
    constructor
    · omega
    · omega
  · apply hp.accept hpc
    · omega
    · omega

theorem Inv.loadBlocker {count place v : ℕ} {writer : Writer Event}
    (hp : p.Inv g initial released) (hpc : p.pc = .loadBlocker count writer)
    (hc : Consumers g released p.published)
    (hl : (released p.state.blockingConsumer).load
      (p.views p.state.blockingConsumer) place = some v) :
  (p.loadBlocker g.unbounded g count writer place v).Inv g initial released
  := by
  have hobserve := hp.observe (hc.growing _ hp.cache.blocking) hl
  have hpending : pending p.pc = none := by
    rw [hpc]
    rfl
  have hat := hp.atPc
  rw [hpc] at hat
  obtain ⟨hpos, hcount⟩ := hat
  rw [Producer.loadBlocker]
  split
  case isTrue hlag => apply hobserve.finish hpending
  case isFalse hlag =>
    rw [Geometry.unbounded_distance] at hlag ⊢
    apply hobserve.goto _ hpending rfl
    use hpos, hcount, by omega, hp.cache.blocking
    rintro i - hor
    obtain rfl : i = p.state.blockingConsumer := by
      rcases hor with hlt | h
      · omega
      · apply h
    rw [seen_observe hl, state_observe]
    omega

/-- A scan which skips the blocker has seen it already. -/
theorem Inv.skipScanned {count greatestLag greatestLagIndex : ℕ} {writer : Writer Event}
    (hp : p.Inv g initial released)
    (hpc : p.pc =
      .scan count writer p.state.blockingConsumer greatestLag greatestLagIndex) :
  Inv g initial released
    (p.goto (.scan count writer (p.state.blockingConsumer + 1) greatestLag greatestLagIndex))
  := by
  have hat := hp.atPc
  rw [hpc] at hat
  obtain ⟨hpos, hcount, hlag, hindex, hscan⟩ := hat
  apply hp.goto _ _ rfl
  · use hpos, hcount, hlag, hindex
    intro i hi hor
    apply hscan i hi
    omega
  · rw [hpc]
    rfl

theorem Inv.loadScanned {count index greatestLag greatestLagIndex place v : ℕ}
    {writer : Writer Event} (hp : p.Inv g initial released)
    (hpc : p.pc = .scan count writer index greatestLag greatestLagIndex)
    (hc : Consumers g released p.published) (hindex : index < g.consumerCount)
    (hl : (released index).load (p.views index) place = some v) :
  Inv g initial released
    (p.loadScanned g.unbounded g count writer index greatestLag greatestLagIndex place v)
  := by
  have hobserve := hp.observe (hc.growing _ hindex) hl
  have hpending : pending p.pc = none := by
    rw [hpc]
    rfl
  have hat : AtPc g released (p.observe index place).views p.state
      (.scan count writer index greatestLag greatestLagIndex) := hpc ▸ hobserve.atPc
  obtain ⟨hpos, hcount, hlag, hgreatest, hscan⟩ := hat
  have hv : p.state.nextToPublish
      ≤ seen released (p.observe index place).views index
        + (p.state.nextToPublish - v) := by
    rw [seen_observe hl]
    omega
  rw [Producer.loadScanned]
  split
  case isTrue hblocked =>
    have hfinish : ((p.observe index place).finish false).Inv g initial released :=
      hobserve.finish hpending
    have hcache := hfinish.cache
    apply hfinish.setState (p.state.blockedBy index) rfl _ trivial
    use hcache.views_le, hcache.room
    apply hindex
  case isFalse hblocked =>
    rw [Geometry.unbounded_distance] at hblocked
    split
    case isTrue hgreater =>
      rw [Geometry.unbounded_distance] at hgreater ⊢
      apply hobserve.goto _ hpending rfl
      use hpos, hcount, by omega, hindex
      intro i hi hor
      rw [state_observe] at hor
      rcases Nat.lt_trichotomy i index with hlt | rfl | hgt
      · apply le_trans (hscan i hi (Or.inl hlt))
        apply Nat.add_le_add_left
        omega
      · apply hv
      · apply le_trans (hscan i hi (Or.inr (by omega)))
        apply Nat.add_le_add_left
        omega
    case isFalse hgreater =>
      rw [Geometry.unbounded_distance] at hgreater
      apply hobserve.goto _ hpending rfl
      use hpos, hcount, hlag, hgreatest
      intro i hi hor
      rw [state_observe] at hor
      rcases Nat.lt_trichotomy i index with hlt | rfl | hgt
      · apply hscan i hi (Or.inl hlt)
      · apply le_trans hv
        apply Nat.add_le_add_left
        omega
      · apply hscan i hi (Or.inr (by omega))

theorem Inv.endScan {count index greatestLag greatestLagIndex : ℕ} {writer : Writer Event}
    (hp : p.Inv g initial released)
    (hpc : p.pc = .scan count writer index greatestLag greatestLagIndex)
    (hindex : g.consumerCount ≤ index) :
  (p.endScan g count writer greatestLag greatestLagIndex).Inv g initial released
  := by
  have hat := hp.atPc
  rw [hpc] at hat
  obtain ⟨hpos, hcount, hlag, hgreatest, hscan⟩ := hat
  have hpending : pending p.pc = none := by
    rw [hpc]
    rfl
  have hset : (p.setState (p.state.rescanned g greatestLag greatestLagIndex)).Inv g initial
      released := by
    apply hp.setState (p.state.rescanned g greatestLag greatestLagIndex) rfl
    · use hp.cache.views_le
      · intro i hi
        have := hscan i hi (Or.inl (by omega))
        simp only [ProducerState.rescanned]
        omega
      · apply hgreatest
    · rw [hpc]
      use hpos, hcount, hlag, hgreatest
      intro i hi _
      apply hscan i hi (Or.inl (by omega))
  apply hset.accept hpending hpos
  rw [state_setState]
  simp only [ProducerState.rescanned]
  omega

/-- Writing the next event into the slot of its position keeps the earlier events which
are not `capacity` positions behind it in their slots. -/
theorem LogInv.write {events : ℕ → Event} {published : Location ℕ} {written : List Event}
    {accepted : List ℕ} {progress : ℕ} {pending : Option ℕ}
    (hl : LogInv g initial events published written accepted progress pending)
    (event : Event) :
  LogInv g initial
    (Function.update events ((initial + written.length) % g.capacity) event) published
    (written ++ [event]) accepted (progress + 1) pending
  := by
  constructor
  · apply hl.growing
  · apply hl.boundary
  · apply hl.last_le
  · apply hl.pending
  · have := hl.length
    rw [List.length_append, List.length_singleton]
    omega
  · intro k event' hk hle
    rw [List.length_append, List.length_singleton] at hle
    rcases Nat.lt_trichotomy k written.length with hlt | rfl | hgt
    · rw [List.getElem?_append_left hlt] at hk
      rw [Function.update_of_ne]
      · apply hl.slots k event' hk
        omega
      · apply Wrapping.mod_ne_mod
        · omega
        · omega
    · rw [List.getElem?_concat_length] at hk
      rw [Function.update_self]
      apply Option.some.inj hk
    · rw [List.getElem?_eq_none] at hk
      · cases hk
      · rw [List.length_append, List.length_singleton]
        omega

/-- The slot at `index` is that of the next event to write. -/
theorem Inv.subscript_eq {count first index : ℕ} {writer : Writer Event}
    (hp : p.Inv g initial released) (hc : Consumers g released p.published)
    (hpc : p.pc = .write count writer first index) :
  g.subscript g.unbounded p.traversal first count index
    = (initial + p.written.length) % g.capacity
  := by
  have hat := hp.atPc
  have hnext := hp.next_eq
  have hlength := hp.log.length
  have havailable := hp.available_le hc
  rw [hpc] at hat hnext hlength
  obtain ⟨hindex, rfl, hcount⟩ := hat
  rw [g.subscript_unbounded p.traversal _ hindex (by omega)]
  congr 1
  simp only [ahead, progress] at hnext hlength
  omega

theorem Inv.write {count first index : ℕ} {writer : Writer Event}
    (hp : p.Inv g initial released) (hc : Consumers g released p.published)
    (hpc : p.pc = .write count writer first index) :
  (p.write g.unbounded g count writer first index).Inv g initial released
  := by
  have hslot := hp.subscript_eq hc hpc
  have hat := hp.atPc
  have hnext := hp.next_eq
  have hlog := hp.log.write (writer index (p.events ((initial + p.written.length) % g.capacity)))
  rw [hpc] at hat hnext hlog
  obtain ⟨hindex, rfl, hcount⟩ := hat
  simp only [ahead] at hnext
  rw [Producer.write, hslot]
  split
  case isTrue hlt =>
    constructor
    · apply hnext
    · apply hlog
    · apply hp.cache
    · apply hp.session
    · apply hp.movedFrom
    · use hlt, rfl
      apply hcount
  case isFalse hge =>
    obtain rfl : count = index + 1 := by omega
    constructor
    · rw [state_goto, state_setState, state_put]
      simp only [ProducerState.take, Geometry.unbounded_advance, hnext]
      rfl
    · apply hlog
    · rw [state_goto, state_setState, state_put]
      use hp.cache.views_le
      · intro i hi
        have hroom := hp.cache.room i hi
        simp only [ProducerState.take, Geometry.unbounded_advance]
        simp only [Producer.goto, views_setState, Producer.put]
        omega
      · apply hp.cache.blocking
    · intro h hh
      obtain ⟨h', hh', rfl⟩ := Option.map_eq_some_iff.mp hh
      apply hp.session h' hh'
    · apply hp.movedFrom
    · apply Nat.succ_pos

/-- The store of the published cursor publishes the batch in progress. -/
theorem Inv.store {count : ℕ} (hp : p.Inv g initial released) (hpc : p.pc = .store count) :
  p.store.Inv g initial released
  := by
  have hnext := hp.next_eq
  have hlog := hp.log
  rw [hpc] at hnext hlog
  simp only [ahead, progress, pending] at hnext hlog
  have hlast : p.accepted.length = p.published.last + 1 := by
    have := congrArg List.length hlog.pending
    simp only [List.length_drop, Option.toList_some, List.length_singleton] at this
    omega
  have hsum : p.accepted.sum = (p.accepted.take p.published.last).sum + count := by
    conv_lhs => rw [← List.take_append_drop p.published.last p.accepted, hlog.pending]
    simp
  constructor
  · rw [Producer.store, state_finish]
    simp only [Producer.finish, Location.current_store, ahead]
    rfl
  · constructor
    · apply hlog.growing.store
      omega
    · intro k hk
      simp only [Producer.store, Producer.finish, Location.last_store] at hk ⊢
      rcases Nat.lt_or_ge p.published.last k with hlt | hle
      · obtain rfl : k = p.published.last + 1 := by omega
        have hcurrent := hlog.boundary p.published.last le_rfl
        simp only [Location.current] at hnext
        rw [Location.value_store_last, ← hlast, List.take_length]
        omega
      · rw [Location.value_store_of_le _ _ hle]
        apply hlog.boundary k hle
    · simp only [Producer.store, Producer.finish, Location.last_store]
      omega
    · simp only [Producer.store, Producer.finish, Location.last_store, ← hlast, List.drop_length]
      rfl
    · have hlength := hlog.length
      simp only [Producer.store, Producer.finish, Location.current_store, progress]
      omega
    · apply hlog.slots
  · apply hp.cache
  · apply hp.session
  · apply hp.movedFrom
  · trivial

/-- A publication keeps the invariant at every step. -/
theorem Inv.resume {place : ℕ} (hp : p.Inv g initial released)
    (hc : Consumers g released p.published)
    (h : p.resume g.unbounded g released place = some p') :
  p'.Inv g initial released
  := by
  cases resumed_of_resume h with
  | loadBlocker count writer v hpc hload => apply hp.loadBlocker hpc hc hload
  | skipScanned count writer greatestLag greatestLagIndex hpc => apply hp.skipScanned hpc
  | loadScanned count writer index greatestLag greatestLagIndex v hpc hindex hload =>
      apply hp.loadScanned hpc hc hindex hload
  | endScan count writer index greatestLag greatestLagIndex hpc hindex =>
      apply hp.endScan hpc hindex
  | write count writer first index hpc => apply hp.write hc hpc
  | store count hpc => apply hp.store hpc

/-! ### Sessions -/

/-- Opening, moving and closing sessions keeps the private state in use. -/
theorem Inv.withSession {owner : ProducerState ℕ} {session : Option (ProducerHandle ℕ)}
    {movedFrom : List (ProducerHandle ℕ)} (hp : p.Inv g initial released)
    (hstate : Producer.state
      { p with owner := owner, session := session, movedFrom := movedFrom } = p.state)
    (hsession : ∀ h ∈ session, h.owner = true) (hmoved : ∀ h ∈ movedFrom, h.owner = false) :
  Inv g initial released
    { p with owner := owner, session := session, movedFrom := movedFrom }
  := by
  constructor
  · rw [hstate]
    apply hp.next_eq
  · apply hp.log
  · rw [hstate]
    apply hp.cache
  · apply hsession
  · apply hmoved
  · rw [hstate]
    apply hp.atPc

/-- The producer keeps its invariant. -/
theorem Inv.step {a : ProducerAction Event} (hp : p.Inv g initial released)
    (hc : Consumers g released p.published)
    (h : p.step g.unbounded g released a = some p') :
  p'.Inv g initial released
  := by
  cases a with
  | resume place => apply hp.resume hc h
  | publish count writer =>
      simp only [Producer.step] at h
      split at h
      case h_1 hpc hsession =>
        obtain rfl := Option.some.inj h
        apply hp.tryPublishBatch
        rw [hpc]
        rfl
      case h_2 => cases h
  | publishHandle count writer =>
      simp only [Producer.step] at h
      split at h
      case h_1 hpc hsession =>
        obtain rfl := Option.some.inj h
        apply hp.tryPublishBatch
        rw [hpc]
        rfl
      case h_2 => cases h
  | makeProducer =>
      simp only [Producer.step] at h
      split at h
      case h_1 hpc hsession =>
        obtain rfl := Option.some.inj h
        apply hp.withSession
        · simp only [Producer.state, hsession]
        · rintro h' hh'
          obtain rfl := Option.some.inj hh'
          rfl
        · apply hp.movedFrom
      case h_2 => cases h
  | moveHandle =>
      simp only [Producer.step] at h
      split at h
      case h_1 handle hpc hsession =>
        obtain rfl := Option.some.inj h
        apply hp.withSession
        · simp only [Producer.state, hsession, ProducerHandle.move]
        · rintro h' hh'
          obtain rfl := Option.some.inj hh'
          apply hp.session _ hsession
        · intro h' hh'
          rcases List.mem_append.mp hh' with hmem | hmem
          · apply hp.movedFrom h' hmem
          · obtain rfl := List.mem_singleton.mp hmem
            rfl
      case h_2 => cases h
  | destroyHandle =>
      simp only [Producer.step] at h
      split at h
      case h_1 handle hpc hsession =>
        obtain rfl := Option.some.inj h
        apply hp.withSession
        · simp only [Producer.state, hsession, ProducerHandle.synchronizeOwnerState,
            hp.session _ hsession, if_true]
        · rintro h' hh'
          cases hh'
        · apply hp.movedFrom
      case h_2 => cases h
  | destroyMovedFrom place =>
      simp only [Producer.step] at h
      split at h
      case h_1 handle hpc hhandle =>
        obtain rfl := Option.some.inj h
        have howner := hp.movedFrom handle (List.mem_of_getElem? hhandle)
        apply hp.withSession
        · simp only [Producer.state, ProducerHandle.synchronizeOwnerState, howner,
            Bool.false_eq_true, if_false]
        · apply hp.session
        · intro h' hh'
          apply hp.movedFrom h' (List.mem_of_mem_eraseIdx hh')
      case h_2 => cases h

/-! ### What a step does to the memory -/

section Memory

variable {P : Type} {A : PositionArithmetic P} {g : Geometry} {released : ℕ → Location P}
  {q q' : Producer P Event}

/-- The slots, the published cursor and the events written are those of `q`. -/
structure SameMemory (q q' : Producer P Event) : Prop where
  events : q'.events = q.events
  published : q'.published = q.published
  written : q'.written = q.written

theorem sameMemory_tryPublishBatch (count : ℕ) (writer : Writer Event) :
  q.SameMemory (q.tryPublishBatch g count writer)
  := by
  rw [tryPublishBatch]
  split_ifs
  all_goals exact ⟨rfl, rfl, rfl⟩

theorem sameMemory_loadBlocker (count : ℕ) (writer : Writer Event) (place : ℕ)
    (position : P) :
  q.SameMemory (q.loadBlocker A g count writer place position)
  := by
  rw [loadBlocker]
  split
  all_goals exact ⟨rfl, rfl, rfl⟩

theorem sameMemory_loadScanned (count : ℕ) (writer : Writer Event)
    (index greatestLag greatestLagIndex place : ℕ) (position : P) :
  q.SameMemory
    (q.loadScanned A g count writer index greatestLag greatestLagIndex place position)
  := by
  rw [loadScanned]
  split
  · exact ⟨rfl, rfl, rfl⟩
  · split
    all_goals exact ⟨rfl, rfl, rfl⟩

/-- A step of the producer is a call of the writer, or the store of the published cursor,
or leaves the memory. -/
theorem step_memory {a : ProducerAction Event} (h : q.step A g released a = some q') :
  q.SameMemory q'
    ∨ (∃ count writer first index, q.pc = .write count writer first index
        ∧ q' = q.write A g count writer first index)
    ∨ (∃ count, q.pc = .store count ∧ q' = q.store)
  := by
  cases a with
  | resume place =>
      cases resumed_of_resume h with
      | loadBlocker =>
          left
          apply sameMemory_loadBlocker
      | loadScanned =>
          left
          apply sameMemory_loadScanned
      | write count writer first index hpc =>
          right
          left
          use count, writer, first, index, hpc
      | store count hpc =>
          right
          right
          use count, hpc
      | _ =>
          left
          exact ⟨rfl, rfl, rfl⟩
  | publish count writer =>
      simp only [step] at h
      split at h
      case h_1 =>
        obtain rfl := Option.some.inj h
        left
        apply sameMemory_tryPublishBatch
      case h_2 => cases h
  | publishHandle count writer =>
      simp only [step] at h
      split at h
      case h_1 =>
        obtain rfl := Option.some.inj h
        left
        apply sameMemory_tryPublishBatch
      case h_2 => cases h
  | _ =>
      simp only [step] at h
      split at h
      case h_1 =>
        obtain rfl := Option.some.inj h
        left
        exact ⟨rfl, rfl, rfl⟩
      case h_2 => cases h

theorem published_write (count : ℕ) (writer : Writer Event) (first : P) (index : ℕ) :
  (q.write A g count writer first index).published = q.published
  := by
  rw [write]
  split
  all_goals rfl

theorem written_write (count : ℕ) (writer : Writer Event) (first : P) (index : ℕ) :
  (q.write A g count writer first index).written
    = q.written ++ [writer index (q.events (g.subscript A q.traversal first count index))]
  := by
  rw [write]
  split
  all_goals rfl

theorem events_write (count : ℕ) (writer : Writer Event) (first : P) (index : ℕ) :
  (q.write A g count writer first index).events
    = Function.update q.events (g.subscript A q.traversal first count index)
        (writer index (q.events (g.subscript A q.traversal first count index)))
  := by
  rw [write]
  split
  all_goals rfl

/-- The producer only adds to what it has published and written. -/
structure Grows (q q' : Producer P Event) : Prop where
  published : q.published.Extends q'.published
  written : q.written <+: q'.written

theorem grows_of_step {a : ProducerAction Event} (h : q.step A g released a = some q') :
  q.Grows q'
  := by
  rcases step_memory h with hsame | ⟨count, writer, first, index, -, rfl⟩ | ⟨count, -, rfl⟩
  · constructor
    · rw [hsame.published]
      apply Location.Extends.refl
    · simp only [hsame.written, List.prefix_rfl]
  · constructor
    · rw [published_write]
      apply Location.Extends.refl
    · rw [written_write]
      apply List.prefix_append
  · constructor
    · apply Location.extends_store
    · apply List.prefix_rfl

/-! ### What a publication does to the handles -/

/-- The handle in use has an owner if it had one before, and the others are the same. -/
structure SameHandles (q q' : Producer P Event) : Prop where
  owner : q'.session.map (·.owner) = q.session.map (·.owner)
  movedFrom : q'.movedFrom = q.movedFrom

/-- A session stays open, or stays closed. -/
theorem SameHandles.isSome (h : q.SameHandles q') :
  q'.session.isSome = q.session.isSome
  := by
  rw [← Option.isSome_map, h.owner, Option.isSome_map]

theorem sameHandles_tryPublishBatch (count : ℕ) (writer : Writer Event) :
  q.SameHandles (q.tryPublishBatch g count writer)
  := by
  rw [tryPublishBatch]
  split_ifs
  all_goals exact ⟨rfl, rfl⟩

theorem sameHandles_setState (state : ProducerState P) :
  q.SameHandles (q.setState state)
  := by
  constructor
  · rw [setState, Option.map_map]
    rfl
  · rfl

/-- The steps of a publication leave the handles. -/
theorem sameHandles_resume {place : ℕ} (h : q.resume A g released place = some q') :
  q.SameHandles q'
  := by
  cases resumed_of_resume h with
  | loadBlocker =>
      rw [loadBlocker]
      split
      all_goals exact ⟨rfl, rfl⟩
  | skipScanned => exact ⟨rfl, rfl⟩
  | loadScanned count writer index =>
      rw [loadScanned]
      split
      · have hset := sameHandles_setState (q := q) (q.state.blockedBy index)
        exact ⟨hset.owner, hset.movedFrom⟩
      · split
        all_goals exact ⟨rfl, rfl⟩
  | endScan count writer index greatestLag greatestLagIndex =>
      have hset := sameHandles_setState (q := q) (q.state.rescanned g greatestLag greatestLagIndex)
      exact ⟨hset.owner, hset.movedFrom⟩
  | write count writer first =>
      rw [write]
      split
      · exact ⟨rfl, rfl⟩
      · have hset := sameHandles_setState (q := q) (q.state.take A first count)
        exact ⟨hset.owner, hset.movedFrom⟩
  | store => exact ⟨rfl, rfl⟩

end Memory

/-! ### What the consumers rely on -/

/-- The next event to write is at most `capacity` positions after any position the
consumers have not released. -/
theorem Inv.length_le (hp : p.Inv g initial released) (hc : Consumers g released p.published)
    {i : ℕ} (hi : i < g.consumerCount) :
  initial + p.written.length ≤ g.capacity + (released i).current
  := by
  have hroom := hp.cache.room i hi
  have hseen := (hc.growing i hi).le_current (hp.cache.views_le i hi)
  have hnext := hp.next_eq
  have hlength := hp.log.length
  have hat := hp.atPc
  simp only [seen] at hroom
  cases hpc : p.pc with
  | write count writer first index =>
      rw [hpc] at hnext hlength hat
      obtain ⟨hindex, -, hcount⟩ := hat
      simp only [ahead, progress] at hnext hlength
      omega
  | _ =>
      rw [hpc] at hnext hlength
      simp only [ahead, progress] at hnext hlength
      omega

/-- The slot of a position that is written and that a consumer has not released holds
the event written for it. -/
theorem Inv.slot_eq (hp : p.Inv g initial released) (hc : Consumers g released p.published)
    {i : ℕ} (hi : i < g.consumerCount) {k : ℕ} {event : Event}
    (hk : p.written[k]? = some event) (hle : (released i).current ≤ initial + k) :
  p.events ((initial + k) % g.capacity) = event
  := by
  apply hp.log.slots k event hk
  have := hp.length_le hc hi
  omega

/-- The published positions have been written. -/
theorem Inv.current_le_length (hp : p.Inv g initial released) :
  p.published.current ≤ initial + p.written.length
  := by
  have := hp.log.length
  omega

end Producer

end Disruptor
