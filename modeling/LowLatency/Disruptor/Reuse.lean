import LowLatency.Disruptor.Delivery

/-!
# No slot is reused while it can be read

The producer writes the slot of a position only once every consumer has released the
position `capacity` before it. So the slots of the positions a consumer has not released are
left alone, and the event a handler sees does not change until the consumer stores its
cursor.
-/

namespace Disruptor

variable {P Event : Type}

/-- The producer is about to write the slot at subscript `slot` for the position
`position`. -/
def Producer.Writes (A : PositionArithmetic P) (g : Geometry) (p : Producer P Event)
    (position : P) (slot : ℕ) : Prop :=
  ∃ count writer first index, p.pc = .write count writer first index
    ∧ position = A.advance first index
    ∧ slot = g.subscript A p.traversal first count index

/-- The position lies in the published positions consumer `i` has not released, counted from
the released position modulo `2 ^ 64`. -/
def State.Unreleased (t : State SequenceType Event) (i : ℕ) (position : SequenceType) : Prop :=
  (position - (t.released i).current).toNat
    < (t.producer.published.current - (t.released i).current).toNat

namespace State

variable {g : Geometry} {initial : ℕ} {s s' : State ℕ Event}

/-! ### Later states -/

/-- `t'` is a state the machine may reach from `t`. -/
structure Later (t t' : State P Event) : Prop where
  producer : t.producer.Grows t'.producer
  released : ∀ i, (t.released i).Extends (t'.released i)

theorem Later.refl (t : State P Event) :
  t.Later t
  := by
  constructor
  · constructor
    · apply Location.Extends.refl
    · apply List.prefix_rfl
  · intro i
    apply Location.Extends.refl

theorem Later.trans {t₁ t₂ t₃ : State P Event} (h : t₁.Later t₂) (h' : t₂.Later t₃) :
  t₁.Later t₃
  := by
  constructor
  · constructor
    · apply h.producer.published.trans h'.producer.published
    · apply h.producer.written.trans h'.producer.written
  · intro i
    apply (h.released i).trans (h'.released i)

theorem later_of_step {A : PositionArithmetic P} {t t' : State P Event} {a : Action Event}
    (h : t.step A g a = some t') :
  t.Later t'
  := by
  cases a with
  | producer a =>
      obtain ⟨p, hp, rfl⟩ := step_producer.mp h
      constructor
      · apply Producer.grows_of_step hp
      · intro i
        apply Location.Extends.refl
  | consumer i a =>
      obtain ⟨c, hc, rfl⟩ := step_consumer.mp h
      constructor
      · apply (Later.refl t).producer
      · apply extends_update (Consumer.extends_of_step hc)

theorem later_of_run [Inhabited Event] {A : PositionArithmetic P} {position : P}
    {t t' : State P Event} {as : List (Action Event)}
    (h : (machine Event A g position).run as t = some t') :
  t.Later t'
  := by
  apply TransitionSystem.run_invariant (I := t.Later) _ (Later.refl t) h
  intro _ _ _ hlater hstep
  apply hlater.trans (later_of_step hstep)

/-! ### On unbounded positions -/

/-- The producer writes a position ahead of the published ones, less than `capacity` ahead
of every consumer. -/
theorem Inv.write_bounds {count first index : ℕ} {writer : Writer Event} (hs : s.Inv g initial)
    (hpc : s.producer.pc = .write count writer first index) {i : ℕ} (hi : i < g.consumerCount) :
  s.producer.published.current ≤ first + index
    ∧ first + index < g.capacity + (s.released i).current
  := by
  have hp := hs.producer
  have hroom := hp.cache.room i hi
  have hseen := (hs.consumers.growing i hi).le_current (hp.cache.views_le i hi)
  have hnext := hp.next_eq
  have hat := hp.atPc
  rw [hpc] at hnext hat
  obtain ⟨hindex, hfirst, hcount⟩ := hat
  simp only [Producer.ahead] at hnext
  simp only [Producer.seen] at hroom
  constructor
  · omega
  · omega

/-- The slot the producer writes is not that of a position a consumer has not released. -/
theorem Inv.write_ne {count first index : ℕ} {writer : Writer Event} (hs : s.Inv g initial)
    (hpc : s.producer.pc = .write count writer first index) {i : ℕ} (hi : i < g.consumerCount)
    {position : ℕ} (hreleased : (s.released i).current ≤ position)
    (hpublished : position < s.producer.published.current) :
  g.subscript g.unbounded s.producer.traversal first count index ≠ position % g.capacity
  := by
  obtain ⟨hle, hlt⟩ := hs.write_bounds hpc hi
  have hat := hs.producer.atPc
  have havailable := hs.producer.available_le hs.consumers
  rw [hpc] at hat
  obtain ⟨hindex, -, hcount⟩ := hat
  rw [g.subscript_unbounded _ _ hindex (by omega)]
  symm
  apply Wrapping.mod_ne_mod
  · omega
  · omega

/-- The slot of a position a consumer has not released holds the event written for it. -/
theorem Inv.slot_eq (hs : s.Inv g initial) {i : ℕ} (hi : i < g.consumerCount) {position : ℕ}
    (hreleased : (s.released i).current ≤ position)
    (hpublished : position < s.producer.published.current) :
  s.producer.written[position - initial]?
    = some (s.producer.events (position % g.capacity))
  := by
  have hlength := hs.producer.current_le_length
  have hfirst : initial ≤ (s.released i).current := (hs.consumer i hi).initial_le
  have hlt : position - initial < s.producer.written.length := by omega
  have hposition : initial + (position - initial) = position := by omega
  have hslot := hs.producer.slot_eq hs.consumers hi (List.getElem?_eq_getElem hlt) (by omega)
  rw [hposition] at hslot
  rw [List.getElem?_eq_getElem hlt, hslot]

/-- As long as a consumer stores nothing in its cursor, the slots of the positions it has not
released are unchanged. -/
theorem Inv.slot_unchanged (hs : s.Inv g initial) (hs' : s'.Inv g initial)
    (hlater : s.Later s') {i : ℕ} (hi : i < g.consumerCount)
    (hlast : (s'.released i).last = (s.released i).last) {position : ℕ}
    (hreleased : (s.released i).current ≤ position)
    (hpublished : position < s.producer.published.current) :
  s'.producer.events (position % g.capacity) = s.producer.events (position % g.capacity)
  := by
  have hcurrent := (hlater.released i).current_eq hlast
  have hle := hs'.producer.log.growing.current_le_of_extends hlater.producer.published
  have hevent := hs.slot_eq hi hreleased hpublished
  have hevent' : s'.producer.written[position - initial]?
      = some (s'.producer.events (position % g.capacity)) :=
    hs'.slot_eq hi (by omega) (by omega)
  obtain ⟨rest, hrest⟩ := hlater.producer.written
  have hlt := (List.getElem?_eq_some_iff.mp hevent).1
  rw [← hrest, List.getElem?_append_left hlt, hevent] at hevent'
  symm
  apply Option.some.inj hevent'

/-- The position a handler runs on is published and not released. -/
theorem Inv.running_bounds {first count index : ℕ} (hs : s.Inv g initial) {i : ℕ}
    (hi : i < g.consumerCount) (hpc : (s.consumer i).pc = .running first count index) :
  (s.released i).current ≤ first + index
    ∧ first + index < s.producer.published.current
  := by
  have hc := hs.consumer i hi
  have hat := hc.atPc
  have hview := hs.producer.log.growing.le_current hc.view_le
  rw [hpc] at hat
  obtain ⟨⟨hfirst, hbound, -⟩, hindex⟩ := hat
  rw [released]
  constructor
  · omega
  · omega

/-- A running handler has been called on the event in the slot of its position. -/
theorem Inv.running_event {first count index : ℕ} (hs : s.Inv g initial) {i : ℕ}
    (hi : i < g.consumerCount) (hpc : (s.consumer i).pc = .running first count index) :
  (s.consumer i).handled.getLast?
    = some (s.producer.events ((first + index) % g.capacity), first + index)
  := by
  have hc := hs.consumer i hi
  obtain ⟨hreleased, hpublished⟩ := hs.running_bounds hi hpc
  have hevent := hs.slot_eq hi hreleased hpublished
  have hlt := (List.getElem?_eq_some_iff.mp hevent).1
  obtain ⟨n, hn, hle, hhandled⟩ := hc.handled
  have hat := hc.atPc
  rw [hpc] at hn hat
  obtain ⟨⟨hfirst, -, -⟩, -⟩ := hat
  simp only [Consumer.done] at hn
  have hinitial := hc.initial_le
  obtain rfl : n = first + index - initial + 1 := by omega
  rw [hhandled, List.getLast?_take, if_neg (Nat.succ_ne_zero _), Nat.add_sub_cancel,
    getElem?_stream, hevent, Option.map_some, Option.some_or, Geometry.unbounded_advance]
  congr 2
  omega

/-! ### On words -/

/-- An unreleased word is the word of an unreleased position. -/
theorem Inv.exists_unreleased (hs : s.Inv g initial) {i : ℕ} (hi : i < g.consumerCount)
    {word : SequenceType} (h : (s.map toWord).Unreleased i word) :
  ∃ position, toWord position = word
    ∧ (s.released i).current ≤ position ∧ position < s.producer.published.current
  := by
  have hle := hs.consumers.current_le i hi
  have hcapacity := hs.current_le_capacity hi
  have hlt := g.capacity_lt
  have hdistance : (toWord s.producer.published.current - toWord (s.released i).current).toNat
      = s.producer.published.current - (s.released i).current :=
    Wrapping.toNat_sub_ofNat hle (by omega)
  change (word - toWord (s.released i).current).toNat
    < (toWord s.producer.published.current - toWord (s.released i).current).toNat at h
  rw [hdistance] at h
  use (s.released i).current + (word - toWord (s.released i).current).toNat
  constructor
  · rw [toWord_add, Wrapping.ofNat_toNat, BitVec.add_comm, BitVec.sub_add_cancel]
  constructor
  · omega
  · omega

theorem Inv.unreleased (hs : s.Inv g initial) {i : ℕ} (hi : i < g.consumerCount)
    {position : ℕ} (hreleased : (s.released i).current ≤ position)
    (hpublished : position < s.producer.published.current) :
  (s.map toWord).Unreleased i (toWord position)
  := by
  have hcapacity := hs.current_le_capacity hi
  have hlt := g.capacity_lt
  change (toWord position - toWord (s.released i).current).toNat
    < (toWord s.producer.published.current - toWord (s.released i).current).toNat
  rw [Wrapping.toNat_sub_ofNat hreleased (by omega),
    Wrapping.toNat_sub_ofNat (by omega) (by omega)]
  omega

/-- The slot the machine on words writes is that written on unbounded positions. -/
theorem exists_writes {word : SequenceType} {slot : ℕ}
    (h : (s.map toWord).producer.Writes g.wrapping g word slot) :
  ∃ count writer first index, s.producer.pc = .write count writer first index
    ∧ word = toWord (first + index)
    ∧ slot = g.subscript g.unbounded s.producer.traversal first count index
  := by
  obtain ⟨count, writer, word', index, hpc, rfl, rfl⟩ := h
  change s.producer.pc.map toWord = _ at hpc
  cases hs : s.producer.pc with
  | write count' writer' first index' =>
      rw [hs] at hpc
      obtain ⟨rfl, rfl, rfl, rfl⟩ := ProducerPc.write.inj hpc
      use count', writer', first, index'
      use rfl
      use g.wrapping_advance first index'
      rw [g.subscript_wrapping]
      congr 1
      apply Producer.traversal_map
  | _ =>
      rw [hs] at hpc
      cases hpc

/-- The position a handler of the machine on words runs on is that on unbounded
positions. -/
theorem exists_running {i : ℕ} {word : SequenceType} {count index : ℕ}
    (h : ((s.map toWord).consumer i).pc = .running word count index) :
  ∃ first, (s.consumer i).pc = .running first count index
    ∧ g.wrapping.advance word index = toWord (first + index)
  := by
  change (s.consumer i).pc.map toWord = _ at h
  cases hs : (s.consumer i).pc with
  | running first count' index' =>
      rw [hs] at h
      obtain ⟨rfl, rfl, rfl⟩ := ConsumerPc.running.inj h
      use first, rfl
      apply g.wrapping_advance
  | _ =>
      rw [hs] at h
      cases h

/-- No slot is reused while a consumer can still read it. Wherever the producer writes the
slot of a position, every consumer is less than `capacity` behind that position, and the slot
is not that of a position the consumer has not released. Wherever the handler of a consumer
runs on a position, that position is not released and its slot holds the event the handler
has been called on; along every run in which the consumer does not store its cursor, the slot
keeps that event and the producer does not write it. -/
theorem no_slot_reused [Inhabited Event] {initialPosition : SequenceType}
    {t : State SequenceType Event}
    (ht : (machine Event g.wrapping g initialPosition).Reachable t) :
  (∀ position slot, t.producer.Writes g.wrapping g position slot → ∀ i < g.consumerCount,
      (position - (t.released i).current).toNat < g.capacity
        ∧ ∀ position', t.Unreleased i position' → g.wrapping.index position' ≠ slot)
    ∧ ∀ i < g.consumerCount, ∀ first count index,
        (t.consumer i).pc = .running first count index →
      let position := g.wrapping.advance first index
      let slot := g.wrapping.index position
      t.Unreleased i position
        ∧ (t.consumer i).handled.getLast? = some (t.producer.events slot, position)
        ∧ ∀ as t', (machine Event g.wrapping g initialPosition).run as t = some t' →
            (t'.released i).last = (t.released i).last →
          t'.producer.events slot = t.producer.events slot
            ∧ ∀ position' slot', t'.producer.Writes g.wrapping g position' slot' →
                slot' ≠ slot
  := by
  obtain ⟨s, hreachable, rfl⟩ := reachable_wrapping_iff.mp ht
  have hs := inv_of_reachable hreachable
  constructor
  · intro word slot hwrites i hi
    obtain ⟨count, writer, first, index, hpc, rfl, rfl⟩ := exists_writes hwrites
    obtain ⟨hpublished, hlt⟩ := hs.write_bounds hpc hi
    constructor
    · have hle := hs.consumers.current_le i hi
      have hcapacity := g.capacity_lt
      change (toWord (first + index) - toWord (s.released i).current).toNat < g.capacity
      rw [Wrapping.toNat_sub_ofNat (by omega) (by omega)]
      omega
    · intro word' hunreleased
      obtain ⟨position, rfl, hreleased, hposition⟩ := hs.exists_unreleased hi hunreleased
      rw [g.wrapping_index]
      symm
      apply hs.write_ne hpc hi hreleased hposition
  · intro i hi word count index hpc
    obtain ⟨first, hpc, hword⟩ := exists_running (g := g) hpc
    obtain ⟨hreleased, hpublished⟩ := hs.running_bounds hi hpc
    simp only [hword, g.wrapping_index, Geometry.unbounded_index]
    use hs.unreleased hi hreleased hpublished
    constructor
    · have hevent := hs.running_event hi hpc
      simp only [State.map, Consumer.map, List.getLast?_map, hevent]
      rfl
    · intro as t' hrun hlast
      rw [hs.map_run] at hrun
      obtain ⟨s', hrun', rfl⟩ := Option.map_eq_some_iff.mp hrun
      have hs' := inv_of_reachable (hreachable.run hrun')
      have hlater := later_of_run hrun'
      constructor
      · apply hs.slot_unchanged hs' hlater hi hlast hreleased hpublished
      · intro word' slot' hwrites
        obtain ⟨count', writer, first', index', hpc', -, rfl⟩ := exists_writes hwrites
        have hcurrent := (hlater.released i).current_eq hlast
        have hle := hs'.producer.log.growing.current_le_of_extends hlater.producer.published
        apply hs'.write_ne hpc' hi
        · omega
        · omega

theorem no_slot_reused_acrossWrap :
  ∃ t, (machine ℕ Geometry.pair.wrapping Geometry.pair (BitVec.allOnes 64)).run
      (acrossWrap.take 8) (init Geometry.pair (BitVec.allOnes 64)) = some t
    ∧ (t.consumer 1).pc = .running (BitVec.allOnes 64) 2 0
    ∧ t.Unreleased 1 (Geometry.pair.wrapping.advance (BitVec.allOnes 64) 0)
  := by
  have hreachable : ∀ t, (machine ℕ Geometry.pair.wrapping Geometry.pair (BitVec.allOnes 64)).run
      (acrossWrap.take 8) (init Geometry.pair (BitVec.allOnes 64)) = some t →
      (machine ℕ Geometry.pair.wrapping Geometry.pair (BitVec.allOnes 64)).Reachable t :=
    fun t h => ⟨acrossWrap.take 8, h⟩
  refine ⟨_, rfl, rfl, ?_⟩
  apply ((no_slot_reused (hreachable _ rfl)).2 1 (by decide) _ 2 0 rfl).1

end State

end Disruptor
