import LowLatency.Disruptor.Rollover

/-!
# Exact multicast delivery

On 64-bit positions, in every interleaving, the handler of each consumer is called on a
prefix of the stream of the events written, each with its sequence. The positions the
producer has published are the ends of the batches it has accepted, so a consumer works on
whole batches only.
-/

namespace Disruptor

variable {Event : Type}

/-- The events in the first `place` batches a producer has accepted. -/
def Producer.acceptedCount {P : Type} (p : Producer P Event) (place : ℕ) : ℕ :=
  (p.accepted.take place).sum

/-- The stream on words is the image of the stream on unbounded positions. -/
theorem stream_wrapping (g : Geometry) (initial : ℕ) (written : List Event) :
  stream g.wrapping (toWord initial) written
    = (stream g.unbounded initial written).map (Prod.map id toWord)
  := by
  apply List.ext_getElem?
  intro k
  rw [List.getElem?_map, getElem?_stream, getElem?_stream, Option.map_map, g.wrapping_advance]
  rfl

theorem Producer.progress_map {P Q : Type} (f : P → Q) (pc : ProducerPc P Event) :
  progress (pc.map f) = progress pc
  := by
  cases pc with
  | _ => rfl

namespace State

variable {g : Geometry} {initial : ℕ} {s : State ℕ Event}

/-- The handler of a consumer has been called on a prefix of the stream, within the batches
the consumer has seen published. -/
theorem Inv.prefix_handled (hs : s.Inv g initial) {i : ℕ} (hi : i < g.consumerCount) :
  (s.consumer i).handled <+: stream g.unbounded initial s.producer.written
    ∧ (s.consumer i).handled.length ≤ s.producer.acceptedCount (s.consumer i).view
  := by
  have hc := hs.consumer i hi
  obtain ⟨n, hn, hle, hhandled⟩ := hc.handled
  have hboundary := hs.producer.log.boundary _ hc.view_le
  have hdone := hc.done_le
  constructor
  · rw [hhandled]
    apply List.take_prefix
  · rw [hhandled, List.length_take, length_stream, Nat.min_eq_left hle, Producer.acceptedCount]
    omega

/-- At most one batch is accepted and not published. -/
theorem Inv.length_accepted (hs : s.Inv g initial) :
  s.producer.published.last ≤ s.producer.accepted.length
    ∧ s.producer.accepted.length ≤ s.producer.published.last + 1
  := by
  have hlog := hs.producer.log
  use hlog.last_le
  have hlength := congrArg List.length hlog.pending
  rw [List.length_drop] at hlength
  cases hpending : Producer.pending s.producer.pc with
  | none =>
      rw [hpending, Option.toList_none, List.length_nil] at hlength
      omega
  | some count =>
      rw [hpending, Option.toList_some, List.length_singleton] at hlength
      omega

/-- The events written are those of the published batches and those of the batch in
progress already written. -/
theorem Inv.length_written (hs : s.Inv g initial) :
  s.producer.written.length
    = s.producer.acceptedCount s.producer.published.last + Producer.progress s.producer.pc
  := by
  have hlength := hs.producer.log.length
  have hboundary := hs.producer.log.boundary _ le_rfl
  rw [Location.current] at hlength
  rw [Producer.acceptedCount]
  omega

/-- Exact multicast delivery. Consumer `i` has received a prefix of the stream of the events
written, each with the sequence of its place in the stream, within the batches it has seen
published. The positions ever published are the ends of the accepted batches, and the
events written are those of the published batches and of the part already written of the
one batch that may be in progress. -/
theorem exact_multicast_delivery [Inhabited Event] {initialPosition : SequenceType}
    {t : State SequenceType Event}
    (ht : (machine Event g.wrapping g initialPosition).Reachable t) :
  (∀ i < g.consumerCount,
      (t.consumer i).handled <+: stream g.wrapping initialPosition t.producer.written
        ∧ (t.consumer i).handled.length ≤ t.producer.acceptedCount (t.consumer i).view
        ∧ (t.consumer i).view ≤ t.producer.published.last)
    ∧ (∀ place ≤ t.producer.published.last,
        t.producer.published.value place
          = initialPosition + BitVec.ofNat 64 (t.producer.acceptedCount place))
    ∧ t.producer.published.last ≤ t.producer.accepted.length
    ∧ t.producer.accepted.length ≤ t.producer.published.last + 1
    ∧ t.producer.written.length
        = t.producer.acceptedCount t.producer.published.last
            + Producer.progress t.producer.pc
  := by
  obtain ⟨s, hreachable, rfl⟩ := reachable_wrapping_iff.mp ht
  have hs := inv_of_reachable hreachable
  constructor
  · intro i hi
    obtain ⟨hpre, hle⟩ := hs.prefix_handled hi
    constructor
    · have hstream := stream_wrapping g initialPosition.toNat s.producer.written
      rw [toWord_toNat] at hstream
      simp only [State.map, Consumer.map, Producer.map]
      rw [hstream]
      apply hpre.map
    constructor
    · simp only [State.map, Consumer.map, List.length_map]
      apply hle
    · apply (hs.consumer i hi).view_le
  constructor
  · intro place hplace
    have hboundary := hs.producer.log.boundary place hplace
    calc toWord (s.producer.published.value place)
        = toWord (initialPosition.toNat + s.producer.acceptedCount place) :=
          congrArg toWord hboundary
      _ = initialPosition + BitVec.ofNat 64 (s.producer.acceptedCount place) := by
          rw [toWord_add, toWord_toNat]
  · obtain ⟨hlast, hlength⟩ := hs.length_accepted
    use hlast, hlength
    have hwritten := hs.length_written
    rw [← Producer.progress_map toWord] at hwritten
    apply hwritten

/-- Two events are published at the last position and the first one, and a consumer receives
them through its handle. -/
def acrossWrap : List (Action ℕ) :=
  [.producer (.publish 2 fun index _ => index + 7), .producer (.resume 0), .producer (.resume 0),
    .producer (.resume 0), .consumer 1 .makeConsumer, .consumer 1 (.consumeHandle 5),
    .consumer 1 (.resume 1), .consumer 1 (.resume 0), .consumer 1 (.resume 0),
    .consumer 1 (.resume 0)]

theorem delivery_acrossWrap :
  ∃ t, (machine ℕ Geometry.pair.wrapping Geometry.pair (BitVec.allOnes 64)).run acrossWrap
      (init Geometry.pair (BitVec.allOnes 64)) = some t
    ∧ (t.consumer 1).handled = [(7, BitVec.allOnes 64), (8, 0)]
    ∧ (t.consumer 1).handled
        <+: stream Geometry.pair.wrapping (BitVec.allOnes 64) t.producer.written
  := ⟨_, rfl, by decide, ((exact_multicast_delivery ⟨acrossWrap, rfl⟩).1 1 (by decide)).1⟩

end State

end Disruptor
