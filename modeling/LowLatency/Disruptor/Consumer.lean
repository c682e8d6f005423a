import LowLatency.Disruptor.Machine

/-!
# The invariant of a consumer

On unbounded positions, where the producer has published `published` and written the
events `written`, a consumer works on the positions between the one it has released and
the publication boundary it has last read. Its handler has been called on a prefix of
the stream of the events written.
-/

namespace Disruptor

variable {P Event : Type}

/-- The events written, each with its position, from `initial` on. -/
def stream (A : PositionArithmetic P) (initial : P) (written : List Event) :
    List (Event × P) :=
  written.mapIdx fun k event => (event, A.advance initial k)

@[simp]
theorem length_stream (A : PositionArithmetic P) (initial : P) (written : List Event) :
  (stream A initial written).length = written.length
  := List.length_mapIdx

theorem getElem?_stream (A : PositionArithmetic P) (initial : P) (written : List Event)
    (k : ℕ) :
  (stream A initial written)[k]? = written[k]?.map fun event => (event, A.advance initial k)
  := List.getElem?_mapIdx

/-- Writing more events extends the stream. -/
theorem prefix_stream (A : PositionArithmetic P) (initial : P) {written written' : List Event}
    (h : written <+: written') :
  stream A initial written <+: stream A initial written'
  := by
  obtain ⟨rest, rfl⟩ := h
  rw [stream, stream, List.mapIdx_append]
  apply List.prefix_append

/-- Taking no more than there is of a list and of an extension of it gives the same. -/
theorem take_eq_of_extends {α : Type} {l l' : List α} (h : l <+: l') {n : ℕ}
    (hn : n ≤ l.length) :
  l'.take n = l.take n
  := by
  obtain ⟨rest, rfl⟩ := h
  apply List.take_append_of_le_length hn

namespace Consumer

/-! ### The next step of a call -/

section Resumed

variable {A : PositionArithmetic P} {g : Geometry} {events : ℕ → Event}
  {published : Location P} {c c' : Consumer P Event} {place : ℕ}

/-- What the next step of a call can do, by where the consumer stands. -/
inductive Resumed (A : PositionArithmetic P) (g : Geometry) (events : ℕ → Event)
    (published : Location P) (c : Consumer P Event) (place : ℕ) : Consumer P Event → Prop where
  | loadCursor (maxCount : ℕ) (hpc : c.pc = .loadCursor maxCount) :
      Resumed A g events published c place
        (c.goto (.loadPublished c.released.current maxCount))
  | loadPublished (first : P) (maxCount : ℕ) (available : P)
      (hpc : c.pc = .loadPublished first maxCount)
      (hload : published.load c.view place = some available) :
      Resumed A g events published c place (c.loadPublished A first maxCount place available)
  | handle (first : P) (count index : ℕ) (hpc : c.pc = .handle first count index) :
      Resumed A g events published c place (c.enter A g events first count index)
  | running (first : P) (count index : ℕ) (hpc : c.pc = .running first count index) :
      Resumed A g events published c place (c.leave A first count index)
  | store (first : P) (count : ℕ) (hpc : c.pc = .store first count) :
      Resumed A g events published c place (c.store A first count)

theorem resumed_of_resume (h : c.resume A g events published place = some c') :
  Resumed A g events published c place c'
  := by
  cases hpc : c.pc with
  | idle =>
      rw [resume, hpc] at h
      cases h
  | loadCursor maxCount =>
      rw [resume, hpc] at h
      obtain rfl := Option.some.inj h
      apply Resumed.loadCursor maxCount hpc
  | loadPublished first maxCount =>
      rw [resume, hpc] at h
      obtain ⟨available, hload, rfl⟩ := Option.map_eq_some_iff.mp h
      apply Resumed.loadPublished first maxCount available hpc hload
  | handle first count index =>
      rw [resume, hpc] at h
      obtain rfl := Option.some.inj h
      apply Resumed.handle first count index hpc
  | running first count index =>
      rw [resume, hpc] at h
      obtain rfl := Option.some.inj h
      apply Resumed.running first count index hpc
  | store first count =>
      rw [resume, hpc] at h
      obtain rfl := Option.some.inj h
      apply Resumed.store first count hpc

end Resumed

/-- The events of the batch in progress the handler has been called on. -/
def done : ConsumerPc P → ℕ
  | .handle _ _ index => index
  | .running _ _ index => index + 1
  | .store _ count => count
  | _ => 0

/-- How far the position of a handle is ahead of the released position. -/
def ahead : ConsumerPc P → ℕ
  | .store _ count => count
  | _ => 0

/-- What holds of a batch of `count` events from `first`, where the consumer has
released `released` and read the publication boundary `bound`. -/
structure Batch (released bound : ℕ) (handle : Option (ConsumerHandle ℕ))
    (first count : ℕ) : Prop where
  first_eq : first = released
  le_bound : first + count ≤ bound
  le_cached : ∀ h ∈ handle, first + count ≤ h.cachedPublishedPosition

/-- What holds by where the consumer stands in a call. -/
def AtPc (released bound : ℕ) (handle : Option (ConsumerHandle ℕ)) : ConsumerPc ℕ → Prop
  | .idle => True
  | .loadCursor maxCount => 0 < maxCount
  | .loadPublished first maxCount => first = released ∧ 0 < maxCount
  | .handle first count index => Batch released bound handle first count ∧ index < count
  | .running first count index => Batch released bound handle first count ∧ index < count
  | .store first count => Batch released bound handle first count ∧ 0 < count

/-- The invariant of a consumer, where positions start at `initial`. -/
structure Inv (g : Geometry) (initial : ℕ) (published : Location ℕ) (written : List Event)
    (c : Consumer ℕ Event) : Prop where
  growing : c.released.Growing
  first : c.released.value 0 = initial
  view_le : c.view ≤ published.last
  released_le : c.released.current ≤ published.value c.view
  next_eq : ∀ h ∈ c.handle, h.nextPosition = c.released.current + ahead c.pc
  next_le : ∀ h ∈ c.handle, h.nextPosition ≤ h.cachedPublishedPosition
  cached_le : ∀ h ∈ c.handle, h.cachedPublishedPosition ≤ published.value c.view
  atPc : AtPc c.released.current (published.value c.view) c.handle c.pc
  handled : ∃ n, initial + n = c.released.current + done c.pc ∧ n ≤ written.length ∧
    c.handled = (stream g.unbounded initial written).take n

variable {g : Geometry} {initial : ℕ} {published published' : Location ℕ}
  {written written' : List Event} {c c' : Consumer ℕ Event}

/-- A consumer has released a position from the first one on. -/
theorem Inv.initial_le (hc : c.Inv g initial published written) :
  initial ≤ c.released.current
  := by
  rw [← hc.first]
  apply hc.growing.le_current (Nat.zero_le _)

/-- The handler has been called on positions below the boundary last read only. -/
theorem Inv.done_le (hc : c.Inv g initial published written) :
  c.released.current + done c.pc ≤ published.value c.view
  := by
  have hat := hc.atPc
  have hreleased := hc.released_le
  cases hpc : c.pc with
  | handle first count index =>
      rw [hpc] at hat
      obtain ⟨⟨hfirst, hbound, -⟩, hindex⟩ := hat
      simp only [done]
      omega
  | running first count index =>
      rw [hpc] at hat
      obtain ⟨⟨hfirst, hbound, -⟩, hindex⟩ := hat
      simp only [done]
      omega
  | store first count =>
      rw [hpc] at hat
      obtain ⟨⟨hfirst, hbound, -⟩, -⟩ := hat
      simp only [done]
      omega
  | _ => apply hreleased

/-- The invariant of a consumer is stable under the steps of the producer. -/
theorem Inv.of_grows (hc : c.Inv g initial published written)
    (hp : published.Extends published') (hw : written <+: written') :
  c.Inv g initial published' written'
  := by
  have hview := hp.value_eq hc.view_le
  constructor
  · apply hc.growing
  · apply hc.first
  · apply le_trans hc.view_le hp.last_le
  · rw [hview]
    apply hc.released_le
  · apply hc.next_eq
  · apply hc.next_le
  · rw [hview]
    apply hc.cached_le
  · rw [hview]
    apply hc.atPc
  · obtain ⟨n, hn, hle, hhandled⟩ := hc.handled
    use n, hn, le_trans hle hw.length_le
    rw [hhandled]
    symm
    apply take_eq_of_extends (prefix_stream _ _ hw)
    rw [length_stream]
    apply hle

/-! ### The steps of a call -/

/-- What a consumer which has released `released` relies on: the slot of every written
position from there on holds its event, and the published positions are written and at
most `capacity` of them are not released. -/
structure Provides (g : Geometry) (initial : ℕ) (events : ℕ → Event) (published : Location ℕ)
    (written : List Event) (released : ℕ) : Prop where
  growing : published.Growing
  slot_eq : ∀ k event, written[k]? = some event → released ≤ initial + k →
    events ((initial + k) % g.capacity) = event
  current_le_length : published.current ≤ initial + written.length
  current_le_capacity : published.current ≤ g.capacity + released

/-- Between places where nothing of a batch is handled the consumer may move. -/
theorem Inv.goto (pc : ConsumerPc ℕ) (hc : c.Inv g initial published written)
    (hdone : done pc = done c.pc) (hahead : ahead pc = ahead c.pc)
    (hat : AtPc c.released.current (published.value c.view) c.handle pc) :
  (c.goto pc).Inv g initial published written
  := by
  constructor
  · apply hc.growing
  · apply hc.first
  · apply hc.view_le
  · apply hc.released_le
  · simp only [Consumer.goto, hahead]
    apply hc.next_eq
  · apply hc.next_le
  · apply hc.cached_le
  · apply hat
  · simp only [Consumer.goto, hdone]
    apply hc.handled

theorem Inv.finish {count : ℕ} (hc : c.Inv g initial published written)
    (hdone : done c.pc = 0) (hahead : ahead c.pc = 0) :
  (c.finish count).Inv g initial published written
  := by
  have hidle := hc.goto .idle hdone.symm hahead.symm trivial
  use hidle.growing, hidle.first, hidle.view_le, hidle.released_le, hidle.next_eq,
    hidle.next_le, hidle.cached_le
  · apply hidle.atPc
  · apply hidle.handled

/-- The beginning of a batch which is available to the consumer. -/
theorem Inv.begin {first availableCount maxCount : ℕ}
    (hc : c.Inv g initial published written) (hdone : done c.pc = 0) (hahead : ahead c.pc = 0)
    (hpos : 0 < availableCount) (hmax : 0 < maxCount)
    (hbatch : Batch c.released.current (published.value c.view) c.handle first availableCount) :
  (c.begin first availableCount maxCount).Inv g initial published written
  := by
  have hle : (if availableCount < maxCount then availableCount else maxCount)
      ≤ availableCount := by
    split_ifs
    · apply le_rfl
    · omega
  apply hc.goto (.handle first _ 0) hdone.symm hahead.symm
  constructor
  · use hbatch.first_eq
    · apply le_trans _ hbatch.le_bound
      omega
    · intro h hh
      apply le_trans _ (hbatch.le_cached h hh)
      omega
  · split_ifs
    · apply hpos
    · apply hmax

/-- A load of the published cursor reads at least what was last read from it. -/
theorem Inv.observe {place v : ℕ} (hc : c.Inv g initial published written)
    (hg : published.Growing) (hl : published.load c.view place = some v)
    (hdone : done c.pc = 0) (hahead : ahead c.pc = 0) :
  Inv g initial published written
    (Consumer.goto { c with view := place, handle := c.handle.map (·.cache v) } .idle)
  := by
  obtain ⟨hview, hlast, rfl⟩ := Location.load_eq_some_iff.mp hl
  have hle := hg hview hlast
  constructor
  · apply hc.growing
  · apply hc.first
  · apply hlast
  · apply le_trans hc.released_le hle
  · intro h hh
    obtain ⟨h', hh', rfl⟩ := Option.map_eq_some_iff.mp hh
    have := hc.next_eq h' hh'
    rw [hahead] at this
    apply this
  · intro h hh
    obtain ⟨h', hh', rfl⟩ := Option.map_eq_some_iff.mp hh
    apply le_trans (hc.next_le h' hh')
    apply le_trans (hc.cached_le h' hh') hle
  · intro h hh
    obtain ⟨h', hh', rfl⟩ := Option.map_eq_some_iff.mp hh
    apply le_rfl
  · trivial
  · have hhandled := hc.handled
    rw [hdone] at hhandled
    apply hhandled

theorem Inv.loadPublished {first maxCount place v : ℕ}
    (hc : c.Inv g initial published written) (hpc : c.pc = .loadPublished first maxCount)
    (hg : published.Growing) (hl : published.load c.view place = some v) :
  (c.loadPublished g.unbounded first maxCount place v).Inv g initial published written
  := by
  have hdone : done c.pc = 0 := by
    rw [hpc]
    rfl
  have hahead : ahead c.pc = 0 := by
    rw [hpc]
    rfl
  have hobserve := hc.observe hg hl hdone hahead
  have hat := hc.atPc
  rw [hpc] at hat
  obtain ⟨hfirst, hmax⟩ := hat
  obtain ⟨hview, hlast, hv⟩ := Location.load_eq_some_iff.mp hl
  have hle : c.released.current ≤ v := by
    apply le_trans hc.released_le
    rw [← hv]
    apply hg hview hlast
  rw [Consumer.loadPublished]
  split
  case isTrue hzero => apply hobserve.finish rfl rfl
  case isFalse hpos =>
    rw [Geometry.unbounded_distance] at hpos ⊢
    apply hobserve.begin rfl rfl (by omega) hmax
    use hfirst
    · simp only [Consumer.goto, hv]
      omega
    · intro h hh
      obtain ⟨h', hh', rfl⟩ := Option.map_eq_some_iff.mp hh
      simp only [ConsumerHandle.cache]
      omega

theorem Inv.batch_of_handle {first count index : ℕ} (hc : c.Inv g initial published written)
    (hpc : c.pc = .handle first count index) :
  Batch c.released.current (published.value c.view) c.handle first count ∧ index < count
  := by
  have hat := hc.atPc
  rw [hpc] at hat
  apply hat

/-- A batch has at most `capacity` events. -/
theorem Batch.count_le {events : ℕ → Event} {released view first count : ℕ}
    {handle : Option (ConsumerHandle ℕ)}
    (hbatch : Batch released (published.value view) handle first count)
    (hp : Provides g initial events published written released) (hview : view ≤ published.last) :
  count ≤ g.capacity
  := by
  have hfirst := hbatch.first_eq
  have hbound := hbatch.le_bound
  have hle := hp.growing.le_current hview
  have hcapacity := hp.current_le_capacity
  omega

/-- The handler is called on the next event of the stream. -/
theorem Inv.enter {events : ℕ → Event} {first count index : ℕ}
    (hc : c.Inv g initial published written) (hpc : c.pc = .handle first count index)
    (hp : Provides g initial events published written c.released.current) :
  (c.enter g.unbounded g events first count index).Inv g initial published written
  := by
  obtain ⟨hbatch, hindex⟩ := hc.batch_of_handle hpc
  obtain ⟨n, hn, hle, hhandled⟩ := hc.handled
  rw [hpc] at hn
  have hbound := hbatch.le_bound
  have hview := hp.growing.le_current hc.view_le
  have hlength := hp.current_le_length
  have hcount := hbatch.count_le hp hc.view_le
  have hfirst := hbatch.first_eq
  simp only [done] at hn
  have hposition : first + index = initial + n := by omega
  have hlt : n < written.length := by omega
  have hslot := g.subscript_unbounded c.traversal first hindex hcount
  have hevent := hp.slot_eq n written[n] (List.getElem?_eq_getElem hlt) (by omega)
  constructor
  · apply hc.growing
  · apply hc.first
  · apply hc.view_le
  · apply hc.released_le
  · have := hc.next_eq
    rw [hpc] at this
    apply this
  · apply hc.next_le
  · apply hc.cached_le
  · use hbatch
  · use n + 1
    constructor
    · simp only [Consumer.enter, done]
      omega
    · use hlt
      simp only [Consumer.enter, hhandled, hslot, hposition, hevent]
      rw [List.take_add_one, getElem?_stream, List.getElem?_eq_getElem hlt,
        Geometry.unbounded_advance, hposition]
      rfl

theorem Inv.leave {first count index : ℕ} (hc : c.Inv g initial published written)
    (hpc : c.pc = .running first count index) :
  (c.leave g.unbounded first count index).Inv g initial published written
  := by
  have hat := hc.atPc
  rw [hpc] at hat
  obtain ⟨hbatch, hindex⟩ := hat
  rw [Consumer.leave]
  split
  case isTrue hlt =>
    apply hc.goto
    · rw [hpc]
      rfl
    · rw [hpc]
      rfl
    · use hbatch
  case isFalse hge =>
    obtain rfl : count = index + 1 := by omega
    have hfirst := hbatch.first_eq
    have hnext := hc.next_eq
    have hhandled := hc.handled
    rw [hpc] at hnext hhandled
    simp only [ahead] at hnext
    constructor
    · apply hc.growing
    · apply hc.first
    · apply hc.view_le
    · apply hc.released_le
    · intro h hh
      obtain ⟨h', hh', rfl⟩ := Option.map_eq_some_iff.mp hh
      have := hnext h' hh'
      simp only [ConsumerHandle.advance, Geometry.unbounded_advance, ahead]
      omega
    · intro h hh
      obtain ⟨h', hh', rfl⟩ := Option.map_eq_some_iff.mp hh
      have := hnext h' hh'
      have := hbatch.le_cached h' hh'
      simp only [ConsumerHandle.advance, Geometry.unbounded_advance]
      omega
    · intro h hh
      obtain ⟨h', hh', rfl⟩ := Option.map_eq_some_iff.mp hh
      apply hc.cached_le h' hh'
    · constructor
      · use hfirst, hbatch.le_bound
        intro h hh
        obtain ⟨h', hh', rfl⟩ := Option.map_eq_some_iff.mp hh
        apply hbatch.le_cached h' hh'
      · apply Nat.succ_pos
    · apply hhandled

/-- The position the consumer stores is the end of the batch. -/
theorem Inv.store_eq {first count : ℕ} (hc : c.Inv g initial published written)
    (hpc : c.pc = .store first count) :
  (c.store g.unbounded first count).released
    = c.released.store (c.released.current + count)
  := by
  have hat := hc.atPc
  have hnext := hc.next_eq
  rw [hpc] at hat hnext
  have hfirst := hat.1.first_eq
  simp only [Consumer.store, Consumer.finish]
  cases hhandle : c.handle with
  | none => rw [hfirst, Geometry.unbounded_advance]
  | some h =>
      congr 1
      apply hnext h hhandle

theorem Inv.store {first count : ℕ} (hc : c.Inv g initial published written)
    (hpc : c.pc = .store first count) :
  (c.store g.unbounded first count).Inv g initial published written
  := by
  have hstore := hc.store_eq hpc
  have hat := hc.atPc
  have hnext := hc.next_eq
  have hhandled := hc.handled
  rw [hpc] at hat hnext hhandled
  obtain ⟨hbatch, hpos⟩ := hat
  have hfirst := hbatch.first_eq
  have hbound := hbatch.le_bound
  simp only [ahead, done] at hnext hhandled
  constructor
  · rw [hstore]
    apply hc.growing.store
    omega
  · rw [hstore, Location.value_store_of_le _ _ (Nat.zero_le _)]
    apply hc.first
  · apply hc.view_le
  · rw [hstore, Location.current_store]
    simp only [Consumer.store, Consumer.finish]
    omega
  · rw [hstore, Location.current_store]
    apply hnext
  · apply hc.next_le
  · apply hc.cached_le
  · trivial
  · rw [hstore, Location.current_store]
    apply hhandled

/-- A call keeps the invariant at every step. -/
theorem Inv.resume {events : ℕ → Event} {place : ℕ} (hc : c.Inv g initial published written)
    (hp : Provides g initial events published written c.released.current)
    (h : c.resume g.unbounded g events published place = some c') :
  c'.Inv g initial published written
  := by
  cases resumed_of_resume h with
  | loadCursor maxCount hpc =>
      have hat := hc.atPc
      rw [hpc] at hat
      apply hc.goto
      · rw [hpc]
        rfl
      · rw [hpc]
        rfl
      · use rfl, hat
  | loadPublished first maxCount v hpc hload => apply hc.loadPublished hpc hp.growing hload
  | handle first count index hpc => apply hc.enter hpc hp
  | running first count index hpc => apply hc.leave hpc
  | store first count hpc => apply hc.store hpc

/-! ### Handles -/

/-- Making, moving and discarding handles while the consumer is idle. -/
theorem Inv.withHandle {handle : Option (ConsumerHandle ℕ)}
    (hc : c.Inv g initial published written) (hpc : c.pc = .idle)
    (hnext : ∀ h ∈ handle, h.nextPosition = c.released.current)
    (hle : ∀ h ∈ handle, h.nextPosition ≤ h.cachedPublishedPosition)
    (hcached : ∀ h ∈ handle, h.cachedPublishedPosition ≤ published.value c.view) :
  Inv g initial published written { c with handle := handle }
  := by
  constructor
  · apply hc.growing
  · apply hc.first
  · apply hc.view_le
  · apply hc.released_le
  · simp only [hpc, ahead]
    apply hnext
  · apply hle
  · apply hcached
  · rw [hpc]
    trivial
  · apply hc.handled

/-- A consumer keeps its invariant. -/
theorem Inv.step {events : ℕ → Event} {i : ℕ} {a : ConsumerAction}
    (hc : c.Inv g initial published written)
    (hp : Provides g initial events published written c.released.current)
    (h : c.step g.unbounded g events published i a = some c') :
  c'.Inv g initial published written
  := by
  cases a with
  | resume place => apply hc.resume hp h
  | consume maxCount =>
      simp only [Consumer.step] at h
      split at h
      case h_1 hpc hhandle =>
        split_ifs at h with hzero
        · obtain rfl := Option.some.inj h
          apply hc.finish
          · rw [hpc]
            rfl
          · rw [hpc]
            rfl
        · obtain rfl := Option.some.inj h
          apply hc.goto
          · rw [hpc]
            rfl
          · rw [hpc]
            rfl
          · simp only [AtPc]
            omega
      case h_2 => cases h
  | makeConsumer =>
      simp only [Consumer.step] at h
      split at h
      case h_1 hpc hhandle =>
        split_ifs at h
        obtain rfl := Option.some.inj h
        apply hc.withHandle hpc
        · rintro h' hh'
          obtain rfl := Option.some.inj hh'
          rfl
        · rintro h' hh'
          obtain rfl := Option.some.inj hh'
          apply le_rfl
        · rintro h' hh'
          obtain rfl := Option.some.inj hh'
          apply hc.released_le
      case h_2 => cases h
  | consumeHandle maxCount =>
      simp only [Consumer.step] at h
      split at h
      case h_1 handle hpc hhandle =>
        have hnext := hc.next_eq handle hhandle
        have hdone : done c.pc = 0 := by
          rw [hpc]
          rfl
        have hahead : ahead c.pc = 0 := by
          rw [hpc]
          rfl
        rw [hahead, Nat.add_zero] at hnext
        split_ifs at h with hmax hzero
        · obtain rfl := Option.some.inj h
          apply hc.finish hdone hahead
        · obtain rfl := Option.some.inj h
          apply hc.goto (.loadPublished _ maxCount) hdone.symm hahead.symm
          use hnext
          omega
        · obtain rfl := Option.some.inj h
          rw [Geometry.unbounded_distance] at hzero ⊢
          have hle := hc.next_le handle hhandle
          have hcached := hc.cached_le handle hhandle
          apply hc.begin hdone hahead (by omega) (by omega)
          use hnext
          · omega
          · intro h' hh'
            obtain rfl : handle = h' := Option.some.inj (hhandle.symm.trans hh')
            omega
      case h_2 => cases h
  | moveHandle =>
      simp only [Consumer.step] at h
      split at h
      case h_1 handle hpc hhandle =>
        obtain rfl := Option.some.inj h
        have hnext := hc.next_eq handle hhandle
        rw [hpc] at hnext
        apply hc.withHandle hpc
        · rintro h' hh'
          obtain rfl := Option.some.inj hh'
          apply hnext
        · rintro h' hh'
          obtain rfl := Option.some.inj hh'
          apply hc.next_le handle hhandle
        · rintro h' hh'
          obtain rfl := Option.some.inj hh'
          apply hc.cached_le handle hhandle
      case h_2 => cases h
  | discardHandle =>
      simp only [Consumer.step] at h
      split at h
      case h_1 handle hpc hhandle =>
        obtain rfl := Option.some.inj h
        apply hc.withHandle hpc
        · rintro h' hh'
          cases hh'
        · rintro h' hh'
          cases hh'
        · rintro h' hh'
          cases hh'
      case h_2 => cases h

/-! ### What a step does to the cursor -/

section Cursor

variable {A : PositionArithmetic P} {events : ℕ → Event} {published : Location P} {i : ℕ}
  {d d' : Consumer P Event}

theorem released_loadPublished (first : P) (maxCount place : ℕ) (available : P) :
  (d.loadPublished A first maxCount place available).released = d.released
  := by
  rw [loadPublished]
  split
  all_goals rfl

theorem released_leave (first : P) (count index : ℕ) :
  (d.leave A first count index).released = d.released
  := by
  rw [leave]
  split
  all_goals rfl

/-- A step of a consumer is the store of its cursor, or leaves it. -/
theorem step_released {a : ConsumerAction} (h : d.step A g events published i a = some d') :
  d'.released = d.released
    ∨ ∃ first count, d.pc = .store first count ∧ d' = d.store A first count
  := by
  cases a with
  | resume place =>
      cases resumed_of_resume h with
      | loadPublished =>
          left
          apply released_loadPublished
      | running =>
          left
          apply released_leave
      | store first count hpc =>
          right
          use first, count, hpc
      | _ =>
          left
          rfl
  | consume maxCount =>
      simp only [step] at h
      split at h
      case h_1 =>
        left
        split_ifs at h
        all_goals
          obtain rfl := Option.some.inj h
          rfl
      case h_2 => cases h
  | makeConsumer =>
      simp only [step] at h
      split at h
      case h_1 =>
        left
        split_ifs at h
        obtain rfl := Option.some.inj h
        rfl
      case h_2 => cases h
  | consumeHandle maxCount =>
      simp only [step] at h
      split at h
      case h_1 =>
        left
        split_ifs at h
        all_goals
          obtain rfl := Option.some.inj h
          rfl
      case h_2 => cases h
  | _ =>
      simp only [step] at h
      split at h
      case h_1 =>
        left
        obtain rfl := Option.some.inj h
        rfl
      case h_2 => cases h

/-- A step of a consumer leads to a later state of its cursor. -/
theorem extends_of_step {a : ConsumerAction}
    (h : d.step A g events published i a = some d') :
  d.released.Extends d'.released
  := by
  rcases step_released h with heq | ⟨first, count, -, rfl⟩
  · rw [heq]
    apply Location.Extends.refl
  · apply Location.extends_store

end Cursor

/-- A consumer outside the registered range only makes indexed calls, which return at
once. -/
theorem idle_of_step {A : PositionArithmetic P} {events : ℕ → Event} {published : Location P}
    {i : ℕ} {d d' : Consumer P Event} {a : ConsumerAction} (hi : g.consumerCount ≤ i)
    (hpc : d.pc = .idle) (hhandle : d.handle = none)
    (h : d.step A g events published i a = some d') :
  d'.pc = .idle ∧ d'.handle = none
  := by
  cases a with
  | consume maxCount =>
      simp only [step, hpc, hhandle] at h
      rw [if_pos (Or.inl hi)] at h
      obtain rfl := Option.some.inj h
      use rfl, hhandle
  | makeConsumer =>
      simp only [step, hpc, hhandle] at h
      rw [if_neg (by omega)] at h
      cases h
  | resume place =>
      simp only [step, resume, hpc] at h
      cases h
  | _ =>
      simp only [step, hpc, hhandle] at h
      cases h

end Consumer

end Disruptor
