import LowLatency.Library.Service
import LowLatency.Disruptor.Refinement

/-!
# The disruptor is linearizable

However the producer and the consumers are interleaved, and however stale their loads are, what
they do is done by the bounded multicast log, one operation after another. A publication takes
effect when it stores the published cursor, and a call of a consumer when it stores its cursor. A
publication that is rejected and a call that finds nothing have no effect.

The log kept here is the one which a program on one thread is given; it has only been published
what a run has published, and the events of the batch in progress are not in it.
-/

namespace Disruptor

variable {P Event : Type}

/-! ### What the steps commit -/

/-- The size and the writer of the publication that was begun last. -/
abbrev Pending (Event : Type) : Type := Option (ℕ × Writer Event)

/-- The publication that was begun last, after one more action. -/
def remember (pending : Pending Event) : Action Event → Pending Event
  | .producer (.publish count writer) | .producer (.publishHandle count writer) =>
      some (count, writer)
  | _ => pending

/-- What a step of the producer commits. -/
def Producer.commit (pending : Pending Event) (p : Producer P Event) :
    ProducerAction Event → Option (Operation Event × Response P Event)
  | .publish _ _ | .publishHandle _ _ => none
  | .makeProducer => some (.makeProducer, .done)
  | .moveHandle => some (.moveHandle, .done)
  | .destroyHandle => some (.destroyHandle, .done)
  | .destroyMovedFrom place => some (.destroyMovedFrom place, .done)
  | .resume _ =>
      match p.pc, pending with
      | .store _, some (count, writer) =>
          some (if p.session.isSome then .publishHandle count writer else .publish count writer,
            .published true)
      | _, _ => none

/-- What a step of consumer `i` commits. The events are those the handler has been called on
last. -/
def Consumer.commit (i : ℕ) (c : Consumer P Event) :
    ConsumerAction → Option (Operation Event × Response P Event)
  | .resume _ =>
      match c.pc with
      | .store _ count =>
          some (.consume i count, .consumed count (c.handled.drop (c.handled.length - count)))
      | _ => none
  | _ => none

def State.commit (pending : Pending Event) (s : State P Event) :
    Action Event → Option (Operation Event × Response P Event)
  | .producer a => s.producer.commit pending a
  | .consumer i a => (s.consumer i).commit i a

/-- The history of a run: what its steps commit. -/
def history [Inhabited Event] (A : PositionArithmetic P) (g : Geometry) (initialPosition : P)
    (actions : List (Action Event)) : List (Operation Event × Response P Event) :=
  (machine Event A g initialPosition).history remember State.commit none actions
    (State.init g initialPosition)

/-- A publication appends to the log. -/
theorem MulticastLog.prefix_append [Inhabited Event] (g : Geometry) (writer : Writer Event)
    (entries : List Event) (n : ℕ) :
  entries <+: append g writer entries n
  := by
  induction n with
  | zero => apply List.prefix_rfl
  | succ n ih =>
      apply ih.trans
      apply List.prefix_append

/-! ### The log of a state -/

variable [Inhabited Event] {g : Geometry} {initialPosition : SequenceType}
  {log : MulticastLog Event} {pending : Pending Event} {s s' : State ℕ Event}

/-- The publication the producer stands in, where `entries` are published. -/
def Producer.InProgress (g : Geometry) (entries : List Event) (pending : Pending Event)
    (p : Producer ℕ Event) : Prop :=
  (p.pc = .idle ∧ p.written = entries)
    ∨ p.pc ≠ .idle ∧ ∃ count writer accepted, pending = some (count, writer)
        ∧ p.Filled g count writer entries accepted p.pc

/-- The log is that of a state: its events are published, the offsets are the positions the
consumers have released, and what is written beyond it belongs to the publication in
progress. -/
structure Linked (g : Geometry) (initialPosition : SequenceType) (log : MulticastLog Event)
    (pending : Pending Event) (s : State ℕ Event) : Prop where
  reachable : (machine Event g.unbounded g initialPosition.toNat).Reachable s
  inProgress : s.producer.InProgress g log.entries pending
  offset : ∀ i < g.consumerCount,
    (s.released i).current = initialPosition.toNat + log.offset i
  session : s.producer.session.isSome = log.session
  shells : s.producer.movedFrom.length = log.shells

namespace Linked

open State

/-- The events of the log are written, and those of the publication in progress. -/
theorem length_written (h : Linked g initialPosition log pending s) :
  log.entries <+: s.producer.written
    ∧ s.producer.written.length = log.entries.length + Producer.progress s.producer.pc
  := by
  rcases h.inProgress with ⟨hpc, hwritten⟩ | ⟨hpc, count, writer, accepted, -, hfilled⟩
  · rw [hpc, hwritten]
    use List.prefix_rfl
    rfl
  · cases hpc' : s.producer.pc with
    | idle => cases hpc hpc'
    | loadBlocker c w =>
        rw [hpc'] at hfilled
        rw [hfilled.2.2.1]
        use List.prefix_rfl
        rfl
    | scan c w index greatestLag greatestLagIndex =>
        rw [hpc'] at hfilled
        rw [hfilled.2.2.1]
        use List.prefix_rfl
        rfl
    | write c w first index =>
        rw [hpc'] at hfilled
        rw [hfilled.2.2, MulticastLog.length_append]
        use MulticastLog.prefix_append g _ log.entries index
        rfl
    | store c =>
        rw [hpc'] at hfilled
        obtain ⟨rfl, hwritten⟩ := hfilled
        rw [hwritten, MulticastLog.length_append]
        use MulticastLog.prefix_append g writer log.entries c
        rfl

/-- The published position stands for the length of the log. -/
theorem published_eq (h : Linked g initialPosition log pending s) :
  s.producer.published.current = initialPosition.toNat + log.entries.length
  := by
  have hlength := (inv_of_reachable h.reachable).producer.log.length
  have hwritten := h.length_written.2
  omega

/-! ### Steps of the producer -/

/-- The producer moves without an effect on the log. -/
theorem ofProducer (h : Linked g initialPosition log pending s) {a : ProducerAction Event}
    (hstep : s.step g.unbounded g (.producer a) = some s') {pending' : Pending Event}
    (hinProgress : s'.producer.InProgress g log.entries pending')
    (hsession : s'.producer.session.isSome = s.producer.session.isSome)
    (hmovedFrom : s'.producer.movedFrom.length = s.producer.movedFrom.length) :
  Linked g initialPosition log pending' s'
  := by
  have hconsumer : s'.consumer = s.consumer := by
    obtain ⟨p, -, rfl⟩ := step_producer.mp hstep
    rfl
  constructor
  · apply reachable_of_step h.reachable hstep
  · apply hinProgress
  · simp only [released, hconsumer]
    apply h.offset
  · rw [hsession, h.session]
  · rw [hmovedFrom, h.shells]

/-- A publication begins, or returns at once. -/
theorem begin (h : Linked g initialPosition log pending s) {a : ProducerAction Event}
    {count : ℕ} {writer : Writer Event} (hidle : s.producer.pc = .idle)
    (ha : a = .publish count writer ∨ a = .publishHandle count writer)
    (hstep : s.step g.unbounded g (.producer a) = some s') :
  Linked g initialPosition log (some (count, writer)) s'
  := by
  have hwritten : s.producer.written = log.entries := by
    rcases h.inProgress with ⟨-, hwritten⟩ | ⟨hpc, -⟩
    · apply hwritten
    · cases hpc hidle
  have hs' := step_publish ha hstep
  have hmemory := Producer.sameMemory_tryPublishBatch (g := g) (q := s.producer) count writer
  have hhandles := Producer.sameHandles_tryPublishBatch (g := g) (q := s.producer) count writer
  apply h.ofProducer hstep
  · rw [hs']
    by_cases hpc : (s.producer.tryPublishBatch g count writer).pc = .idle
    · left
      use hpc
      rw [hmemory.written, hwritten]
    · right
      use hpc, count, writer, s.producer.accepted, rfl
      have hbounds : 0 < count ∧ count ≤ g.capacity := by
        by_contra hnot
        apply hpc
        rw [Producer.tryPublishBatch]
        split_ifs with hzero hlarge
        · rfl
        · rfl
        all_goals omega
      rw [← hwritten]
      apply Producer.filled_tryPublishBatch hbounds.1 hbounds.2
  · rw [hs']
    apply hhandles.isSome
  · rw [hs']
    simp only [hhandles.movedFrom]

/-- A step of a publication, but for the last. -/
theorem resume (h : Linked g initialPosition log pending s) {place : ℕ}
    (hstep : s.step g.unbounded g (.producer (.resume place)) = some s')
    (hstore : ∀ count, s.producer.pc ≠ .store count) :
  Linked g initialPosition log pending s'
  := by
  have hs := inv_of_reachable h.reachable
  have hrecycled := hs.recycled_eq (fresh_of_reachable h.reachable)
  obtain ⟨p, hp, rfl⟩ := step_producer.mp hstep
  have hhandles := Producer.sameHandles_resume hp
  apply h.ofProducer hstep
  · rcases h.inProgress with ⟨hpc, -⟩ | ⟨-, count, writer, accepted, hpending, hfilled⟩
    · simp only [Producer.step, Producer.resume, hpc] at hp
      cases hp
    · have hfilled' := hfilled.resume hs.producer hs.consumers hrecycled hp
      by_cases hidle : p.pc = .idle
      · left
        use hidle
        cases Producer.resumed_of_resume hp with
        | loadBlocker c w v hpc =>
            rw [hpc] at hfilled
            have hmemory := Producer.sameMemory_loadBlocker (A := g.unbounded) (g := g)
              (q := s.producer) c w place v
            simp only [hmemory.written, hfilled.2.2.1]
        | skipScanned => cases hidle
        | loadScanned c w index greatestLag greatestLagIndex v hpc =>
            rw [hpc] at hfilled
            have hmemory := Producer.sameMemory_loadScanned (A := g.unbounded) (g := g)
              (q := s.producer) c w index greatestLag greatestLagIndex place v
            simp only [hmemory.written, hfilled.2.2.1]
        | endScan => cases hidle
        | write c w first index =>
            simp only [Producer.write] at hidle
            split_ifs at hidle
            all_goals cases hidle
        | store c hpc => cases hstore c hpc
      · right
        use hidle, count, writer, accepted, hpending
  · apply hhandles.isSome
  · simp only [hhandles.movedFrom]

/-- The store of the published cursor publishes the batch. -/
theorem store (h : Linked g initialPosition log pending s) {place count : ℕ}
    (hstep : s.step g.unbounded g (.producer (.resume place)) = some s')
    (hpc : s.producer.pc = .store count) :
  ∃ writer, pending = some (count, writer)
    ∧ log.publish (P := SequenceType) g count writer
      = (.published true, { log with entries := MulticastLog.append g writer log.entries count })
    ∧ Linked g initialPosition
        { log with entries := MulticastLog.append g writer log.entries count } pending s'
  := by
  have hs := inv_of_reachable h.reachable
  have hpublished := h.published_eq
  have hlength := h.length_written.2
  have hat := hs.producer.atPc
  rw [hpc] at hlength hat
  simp only [Producer.progress] at hlength
  rcases h.inProgress with ⟨hidle, -⟩ | ⟨-, c, writer, accepted, hpending, hfilled⟩
  · rw [hpc] at hidle
    cases hidle
  · rw [hpc] at hfilled
    obtain ⟨rfl, hwritten⟩ := hfilled
    have hroom : log.HasRoom g count := by
      intro i hi
      have hbound := hs.producer.length_le hs.consumers hi
      have hoffset := h.offset i hi
      omega
    have hcapacity : count ≤ g.capacity := by
      have hpos := g.consumerCount_ne_zero
      have hbound := hs.producer.length_le hs.consumers hpos
      have hcurrent := hs.consumers.current_le 0 hpos
      omega
    use writer, hpending
    constructor
    · rw [MulticastLog.publish, if_neg (Nat.ne_of_gt hat), if_neg (by omega), if_pos hroom]
    · obtain ⟨p, hp, rfl⟩ := step_producer.mp hstep
      simp only [Producer.step, Producer.resume, hpc, Option.some.injEq] at hp
      subst hp
      constructor
      · apply reachable_of_step h.reachable hstep
      · left
        use rfl
        apply hwritten
      · apply h.offset
      · apply h.session
      · apply h.shells

end Linked

/-! ### Steps of a consumer -/

namespace Linked

open State

/-- A consumer moves without an effect on the log. -/
theorem ofConsumer (h : Linked g initialPosition log pending s) {i : ℕ} {a : ConsumerAction}
    (hstep : s.step g.unbounded g (.consumer i a) = some s')
    (hreleased : (s'.consumer i).released = (s.consumer i).released) :
  Linked g initialPosition log pending s'
  := by
  have hreachable := reachable_of_step h.reachable hstep
  obtain ⟨c, hc, rfl⟩ := step_consumer.mp hstep
  simp only [Function.update_self] at hreleased
  constructor
  · apply hreachable
  · apply h.inProgress
  · intro j hj
    by_cases hji : j = i
    · subst hji
      simp only [released, Function.update_self, hreleased]
      apply h.offset j hj
    · simp only [released, Function.update_of_ne hji]
      apply h.offset j hj
  · apply h.session
  · apply h.shells

/-- The events of the last batch of a consumer, which it has handled and not released. -/
theorem handled_eq (h : Linked g initialPosition log pending s) {i : ℕ} {first count : ℕ}
    (hpc : (s.consumer i).pc = .store first count) :
  i < g.consumerCount ∧ log.offset i + count ≤ log.entries.length
    ∧ (s.consumer i).handled.drop ((s.consumer i).handled.length - count)
      = ((stream g.unbounded initialPosition.toNat log.entries).drop (log.offset i)).take count
  := by
  have hs := inv_of_reachable h.reachable
  have hi : i < g.consumerCount := by
    by_contra hge
    have hidle := (hs.outside i (by omega)).1
    rw [hpc] at hidle
    cases hidle
  have hc := hs.consumer i hi
  obtain ⟨n, hn, hle, hhandled⟩ := hc.handled
  have hdone := hc.done_le
  have hbound := hs.producer.log.growing.le_current hc.view_le
  have hoffset := h.offset i hi
  have hpublished := h.published_eq
  have hprefix := h.length_written.1
  simp only [released] at hoffset
  rw [hpc] at hn hdone
  simp only [Consumer.done] at hn hdone
  have hcount : log.offset i + count ≤ log.entries.length := by omega
  have hhandled' : (s.consumer i).handled
      = (stream g.unbounded initialPosition.toNat log.entries).take (log.offset i + count) := by
    obtain rfl : n = log.offset i + count := by omega
    rw [hhandled]
    apply take_eq_of_extends (prefix_stream _ _ hprefix)
    rw [length_stream]
    apply hcount
  use hi, hcount
  rw [hhandled', List.length_take, length_stream, Nat.min_eq_left hcount, Nat.add_sub_cancel,
    List.drop_take, Nat.add_sub_cancel_left]

end Linked

/-! ### Every step commits what the log does -/

namespace Linked

open State

/-- A session of the machine is one of the log. -/
theorem session_eq (h : Linked g initialPosition log pending s) {session : Bool}
    (hsession : s.producer.session.isSome = session) :
  log.session = session
  := by
  rw [← h.session, hsession]

end Linked

open State

end Disruptor
