import LowLatency.Disruptor.Delivery

/-!
# The representation invariant

What the members of the disruptor and of its handles satisfy on 64-bit positions, at every
state of every run.
-/

namespace Disruptor

variable {Event : Type}

/-- The representation invariant. The private position of the producer is the published one,
ahead of it by the batch in progress once that is written. The capacity cache leaves room
for the lag of every consumer, and the blocker hint names a consumer. Every consumer, and
every handle, is within `capacity` of the published position, and a handle has cached a
position no later than that one. -/
structure Representation (g : Geometry) (t : State SequenceType Event) : Prop where
  next_eq :
    t.producer.state.nextToPublish
      = t.producer.published.current + BitVec.ofNat 64 (Producer.ahead t.producer.pc)
  available_le : t.producer.state.availableBeforeRescan ≤ g.capacity
  room : ∀ i < g.consumerCount,
    t.producer.state.availableBeforeRescan
      + (t.producer.state.nextToPublish - (t.released i).current).toNat ≤ g.capacity
  blocking : t.producer.state.blockingConsumer < g.consumerCount
  lag : ∀ i < g.consumerCount,
    (t.producer.published.current - (t.released i).current).toNat ≤ g.capacity
  handle_next : ∀ i < g.consumerCount, ∀ h ∈ (t.consumer i).handle,
    (t.consumer i).pc = .idle → h.nextPosition = (t.released i).current
  handle_cached : ∀ i < g.consumerCount, ∀ h ∈ (t.consumer i).handle,
    (h.cachedPublishedPosition - h.nextPosition).toNat
        ≤ (t.producer.published.current - h.nextPosition).toNat
      ∧ (t.producer.published.current - h.nextPosition).toNat ≤ g.capacity

theorem Producer.ahead_map {P Q : Type} (f : P → Q) (pc : ProducerPc P Event) :
  ahead (pc.map f) = ahead pc
  := by
  cases pc with
  | _ => rfl

namespace State

variable {g : Geometry} {initial : ℕ} {s : State ℕ Event}

/-- The capacity cache leaves room for the lag of every consumer. -/
theorem Inv.room (hs : s.Inv g initial) {i : ℕ} (hi : i < g.consumerCount) :
  (s.released i).current ≤ s.producer.state.nextToPublish
    ∧ s.producer.state.availableBeforeRescan + s.producer.state.nextToPublish
        ≤ g.capacity + (s.released i).current
  := by
  have hroom := hs.producer.cache.room i hi
  have hseen := (hs.consumers.growing i hi).le_current (hs.producer.cache.views_le i hi)
  have hcurrent := hs.consumers.current_le i hi
  have hnext := hs.producer.next_eq
  rw [Producer.seen] at hroom
  constructor
  · omega
  · omega

/-- The positions of a handle lie between the released and the published position. -/
theorem Inv.handle_le (hs : s.Inv g initial) {i : ℕ} (hi : i < g.consumerCount)
    {h : ConsumerHandle ℕ} (hh : h ∈ (s.consumer i).handle) :
  (s.released i).current ≤ h.nextPosition
    ∧ h.nextPosition ≤ h.cachedPublishedPosition
    ∧ h.cachedPublishedPosition ≤ s.producer.published.current
  := by
  have hc := hs.consumer i hi
  have hnext := hc.next_eq h hh
  have hview := hs.producer.log.growing.le_current hc.view_le
  constructor
  · rw [hnext]
    apply Nat.le_add_right
  constructor
  · apply hc.next_le h hh
  · apply le_trans (hc.cached_le h hh) hview

/-- The representation invariant follows from the invariant on unbounded positions. -/
theorem Inv.representation (hs : s.Inv g initial) :
  Representation g (s.map toWord)
  := by
  have hcapacity := g.capacity_lt
  constructor
  · have hnext := congrArg toWord hs.producer.next_eq
    rw [toWord_add, ← Producer.ahead_map toWord] at hnext
    rw [producer_map, Producer.state_map, ProducerState.nextToPublish_map]
    apply hnext
  · rw [producer_map, Producer.state_map, ProducerState.availableBeforeRescan_map]
    apply hs.producer.available_le hs.consumers
  · intro i hi
    obtain ⟨hle, hroom⟩ := hs.room hi
    rw [producer_map, Producer.state_map, ProducerState.availableBeforeRescan_map,
      ProducerState.nextToPublish_map, current_released_map,
      Wrapping.toNat_sub_ofNat hle (by omega)]
    omega
  · rw [producer_map, Producer.state_map, ProducerState.blockingConsumer_map]
    apply hs.producer.cache.blocking
  · intro i hi
    have hle := hs.consumers.current_le i hi
    have hlag := hs.current_le_capacity hi
    rw [producer_map, Producer.current_published_map, current_released_map,
      Wrapping.toNat_sub_ofNat hle (by omega)]
    omega
  · intro i hi h hh hpc
    obtain ⟨h', hh', rfl⟩ := Option.map_eq_some_iff.mp hh
    have hnext := (hs.consumer i hi).next_eq h' hh'
    have hidle : (s.consumer i).pc = .idle := Consumer.pc_eq_idle hpc
    rw [hidle] at hnext
    apply congrArg toWord hnext
  · intro i hi h hh
    obtain ⟨h', hh', rfl⟩ := Option.map_eq_some_iff.mp hh
    obtain ⟨hreleased, hnext, hcached⟩ := hs.handle_le hi hh'
    have hlag := hs.current_le_capacity hi
    rw [producer_map, Producer.current_published_map]
    simp only [ConsumerHandle.map]
    rw [Wrapping.toNat_sub_ofNat hnext (by omega),
      Wrapping.toNat_sub_ofNat (by omega) (by omega)]
    constructor
    · omega
    · omega

/-- The representation invariant holds at every reachable state on 64-bit positions. -/
theorem representation_of_reachable [Inhabited Event] {initialPosition : SequenceType}
    {t : State SequenceType Event}
    (ht : (machine Event g.wrapping g initialPosition).Reachable t) :
  Representation g t
  := by
  obtain ⟨s, hreachable, rfl⟩ := reachable_wrapping_iff.mp ht
  apply (inv_of_reachable hreachable).representation

theorem representation_acrossWrap :
  ∃ t, (machine ℕ Geometry.pair.wrapping Geometry.pair (BitVec.allOnes 64)).run acrossWrap
      (init Geometry.pair (BitVec.allOnes 64)) = some t
    ∧ Representation Geometry.pair t
  := by
  have hreachable : ∀ t, (machine ℕ Geometry.pair.wrapping Geometry.pair (BitVec.allOnes 64)).run
      acrossWrap (init Geometry.pair (BitVec.allOnes 64)) = some t →
      (machine ℕ Geometry.pair.wrapping Geometry.pair (BitVec.allOnes 64)).Reachable t :=
    fun t h => ⟨acrossWrap, h⟩
  exact ⟨_, rfl, representation_of_reachable (hreachable _ rfl)⟩

end State

end Disruptor
