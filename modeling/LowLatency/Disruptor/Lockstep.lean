import LowLatency.Disruptor.Backpressure

/-!
# Publication in lockstep

A producer that waits until every consumer has released what it has published is never refused:
a publication which begins then, and whose loads read nothing older than what the producer has
waited for, is accepted after a number of steps. A consumer that adds up what its calls return
knows what it has released.
-/

namespace Disruptor

variable {Event : Type} {g : Geometry} {initial : ℕ}

namespace Producer

/-- A producer on words stands outside a publication where the producer on positions does. -/
theorem pc_eq_idle {P Q : Type} {f : P → Q} {p : Producer P Event} (h : (p.map f).pc = .idle) :
  p.pc = .idle
  := by
  rw [pc_map] at h
  cases hpc : p.pc with
  | idle => rfl
  | _ =>
      rw [hpc] at h
      cases h

/-- The size of the publication the producer stands in. -/
def batch {P : Type} : ProducerPc P Event → Option ℕ
  | .idle => none
  | .loadBlocker count _ => some count
  | .scan count _ _ _ _ => some count
  | .write count _ _ _ => some count
  | .store count => some count

/-- A publication of `count` events is under way, where `position` is published. -/
structure Publishing (count position : ℕ) (p : Producer ℕ Event) : Prop where
  batch : batch p.pc = some count
  published : p.published.current = position

variable {released : ℕ → Location ℕ} {count position place : ℕ} {p p' : Producer ℕ Event}

theorem Publishing.pc_ne (h : Publishing count position p) :
  p.pc ≠ .idle
  := by
  intro hpc
  have hbatch := h.batch
  rw [hpc] at hbatch
  cases hbatch

/-- A publication of a possible size is under way after its first step. -/
theorem publishing_begin {writer : Writer Event} (hpos : 0 < count) (hcount : count ≤ g.capacity)
    (hpublished : p.published.current = position) :
  Publishing count position (p.tryPublishBatch g count writer)
  := by
  have hmemory := sameMemory_tryPublishBatch (g := g) (q := p) count writer
  constructor
  · rw [tryPublishBatch, if_neg (by omega), if_neg (by omega)]
    split
    · rfl
    · rfl
  · rw [hmemory.published, hpublished]

/-- The first write of a batch is at the published position. -/
theorem Publishing.next_eq (h : Publishing count position p) (hp : p.Inv g initial released)
    (hahead : ahead p.pc = 0) :
  p.state.nextToPublish = position
  := by
  rw [hp.next_eq, hahead, h.published, Nat.add_zero]

/-- What a step of a publication leads to if what it loads is not below the published position:
the publication goes on, or its batch is published. -/
theorem Publishing.resume (h : Publishing count position p) (hp : p.Inv g initial released)
    (hcount : count ≤ g.capacity)
    (hload : ∀ i < g.consumerCount, ∀ v, (released i).load (p.views i) place = some v →
      position ≤ v)
    (hresume : p.resume g.unbounded g released place = some p') :
  (Publishing count position p' ∧ p'.returned = p.returned)
    ∨ p'.pc = .idle ∧ p'.published.current = position + count
        ∧ p'.returned = p.returned ++ [true]
  := by
  have hpublished := h.published
  have hbatch := h.batch
  cases resumed_of_resume hresume with
  | loadBlocker c writer v hpc hl =>
      left
      rw [hpc] at hbatch
      obtain rfl := Option.some.inj hbatch
      have hnext := h.next_eq hp (by rw [hpc]; rfl)
      have hle := hload _ hp.cache.blocking v hl
      have hlag : ¬g.unbounded.distance p.state.nextToPublish v > g.capacity - c := by
        rw [Geometry.unbounded_distance]
        omega
      rw [loadBlocker, if_neg hlag]
      exact ⟨⟨rfl, hpublished⟩, rfl⟩
  | skipScanned c writer greatestLag greatestLagIndex hpc =>
      left
      rw [hpc] at hbatch
      exact ⟨⟨hbatch, hpublished⟩, rfl⟩
  | loadScanned c writer index greatestLag greatestLagIndex v hpc hindex hl =>
      left
      rw [hpc] at hbatch
      obtain rfl := Option.some.inj hbatch
      have hnext := h.next_eq hp (by rw [hpc]; rfl)
      have hle := hload index hindex v hl
      have hlag : ¬g.unbounded.distance p.state.nextToPublish v > g.capacity - c := by
        rw [Geometry.unbounded_distance]
        omega
      rw [loadScanned, if_neg hlag]
      split
      · exact ⟨⟨rfl, hpublished⟩, rfl⟩
      · exact ⟨⟨rfl, hpublished⟩, rfl⟩
  | endScan c writer index greatestLag greatestLagIndex hpc =>
      left
      rw [hpc] at hbatch
      exact ⟨⟨hbatch, hpublished⟩, rfl⟩
  | write c writer first index hpc =>
      left
      rw [hpc] at hbatch
      rw [write]
      split
      · exact ⟨⟨hbatch, hpublished⟩, rfl⟩
      · exact ⟨⟨hbatch, hpublished⟩, rfl⟩
  | store c hpc =>
      right
      rw [hpc] at hbatch
      obtain rfl := Option.some.inj hbatch
      have hnext := hp.next_eq
      rw [hpc, hpublished] at hnext
      refine ⟨rfl, ?_, rfl⟩
      simp only [store, finish, Location.current_store, hnext, ahead]

/-- A publication under way has written no more than its batch. -/
theorem Publishing.progress_le (h : Publishing count position p) (hp : p.Inv g initial released) :
  progress p.pc ≤ count
  := by
  have hbatch := h.batch
  have hat := hp.atPc
  cases hpc : p.pc with
  | write c writer first index =>
      rw [hpc] at hbatch hat
      obtain rfl := Option.some.inj hbatch
      apply hat.1.le
  | store c =>
      rw [hpc] at hbatch
      obtain rfl := Option.some.inj hbatch
      apply Nat.le_refl
  | _ => apply Nat.zero_le

/-- The events written are those published, and some of the batch under way. -/
theorem Publishing.length_le (h : Publishing count position p) (hp : p.Inv g initial released) :
  initial + p.written.length ≤ position + count
  := by
  have hlength := hp.log.length
  have hprogress := h.progress_le hp
  rw [h.published] at hlength
  omega

/-- A step of a publication reads no position below what it has read. -/
theorem Inv.seen_le_resume (hp : p.Inv g initial released)
    (hc : Consumers g released p.published)
    (hresume : p.resume g.unbounded g released place = some p') (i : ℕ) :
  seen released p.views i ≤ seen released p'.views i
  := by
  cases resumed_of_resume hresume with
  | loadBlocker c writer v hpc hl =>
      have hobserve := seen_le_observe (hc.growing _ hp.cache.blocking) hl i
      rw [Producer.loadBlocker]
      split
      · apply hobserve
      · apply hobserve
  | loadScanned c writer index greatestLag greatestLagIndex v hpc hindex hl =>
      have hobserve := seen_le_observe (hc.growing index hindex) hl i
      rw [Producer.loadScanned]
      split
      · apply hobserve
      · split
        · apply hobserve
        · apply hobserve
  | write c writer first index hpc =>
      rw [Producer.write]
      split
      · apply Nat.le_refl
      · apply Nat.le_refl
  | skipScanned | endScan | store => apply Nat.le_refl

theorem views_tryPublishBatch (count : ℕ) (writer : Writer Event) :
  (p.tryPublishBatch g count writer).views = p.views
  := by
  rw [tryPublishBatch]
  split_ifs
  all_goals rfl

/-- A load of a cursor reads no position below what has been read. -/
theorem Consumers.seen_le_load (hc : Consumers g released p.published) {i v : ℕ}
    (hi : i < g.consumerCount)
    (hload : (released i).load (p.views i) place = some v) :
  seen released p.views i ≤ v
  := by
  have hle := seen_le_observe (hc.growing i hi) hload i
  rw [seen_observe hload] at hle
  apply hle

end Producer

/-! ### The calls of a consumer -/

namespace Consumer

variable {P : Type} {A : PositionArithmetic P} {events : ℕ → Event} {place : ℕ}

/-- A step of a call handles one more event if it calls the handler, and none otherwise. -/
theorem handled_resume {published : Location P} {c c' : Consumer P Event}
    (h : c.resume A g events published place = some c') :
  (∃ first count index entry, c.pc = .handle first count index
      ∧ c'.handled = c.handled ++ [entry])
    ∨ (∀ first count index, c.pc ≠ .handle first count index) ∧ c'.handled = c.handled
  := by
  cases resumed_of_resume h with
  | handle first count index hpc =>
      left
      exact ⟨first, count, index, _, hpc, rfl⟩
  | loadCursor maxCount hpc =>
      right
      simp only [hpc, ne_eq, reduceCtorEq, not_false_eq_true, implies_true, true_and]
      rfl
  | loadPublished first maxCount v hpc =>
      right
      simp only [hpc, ne_eq, reduceCtorEq, not_false_eq_true, implies_true, true_and]
      rw [loadPublished]
      split
      · rfl
      · rfl
  | running first count index hpc =>
      right
      simp only [hpc, ne_eq, reduceCtorEq, not_false_eq_true, implies_true, true_and]
      rw [leave]
      split
      · rfl
      · rfl
  | store first count hpc =>
      right
      simp only [hpc, ne_eq, reduceCtorEq, not_false_eq_true, implies_true, true_and]
      rfl

/-- A step of a call is inside the call, or the call returns what it has released. -/
theorem Inv.returned_resume {published : Location ℕ} {written : List Event}
    {c c' : Consumer ℕ Event} (hc : c.Inv g initial published written)
    (h : c.resume g.unbounded g events published place = some c') :
  (c'.pc ≠ .idle ∧ c'.released = c.released)
    ∨ c'.pc = .idle ∧ ∃ count, c'.returned = c.returned ++ [count]
      ∧ c'.released.current = c.released.current + count
  := by
  cases resumed_of_resume h with
  | loadCursor maxCount hpc =>
      left
      simp [Consumer.goto]
  | loadPublished first maxCount v hpc =>
      rw [Consumer.loadPublished]
      split
      case isTrue =>
        right
        use rfl, 0, rfl
        rfl
      case isFalse =>
        left
        simp [Consumer.begin, Consumer.goto]
  | handle first count index hpc =>
      left
      simp [Consumer.enter]
  | running first count index hpc =>
      left
      rw [Consumer.leave]
      split
      · simp [Consumer.goto]
      · simp
  | store first count hpc =>
      right
      use rfl, count, rfl
      rw [hc.store_eq hpc, Location.current_store]

end Consumer

/-- What a consumer has handled is the beginning of what is written, and is beyond what it has
released by the batch it stands in. -/
theorem State.Inv.handled_eq {u : State ℕ Event} (hu : u.Inv g 0) {i : ℕ}
    (hi : i < g.consumerCount) :
  ((u.map toWord).consumer i).handled.length
      = (u.released i).current + Consumer.done (u.consumer i).pc
    ∧ ((u.map toWord).consumer i).handled.length ≤ u.producer.published.current
    ∧ ((u.map toWord).consumer i).handled
        = (stream g.wrapping 0 (u.map toWord).producer.written).take
          ((u.map toWord).consumer i).handled.length
  := by
  have hconsumer := hu.consumer i hi
  have hview := hu.producer.log.growing.le_current hconsumer.view_le
  have hdone := hconsumer.done_le
  obtain ⟨n, hn, hle, hhandled⟩ := hconsumer.handled
  have hstream := stream_wrapping g 0 u.producer.written
  have htake : ((u.map toWord).consumer i).handled
      = (stream g.wrapping 0 (u.map toWord).producer.written).take n := by
    simp only [State.map, Consumer.map, Producer.map, hhandled]
    rw [List.map_take, ← hstream]
    rfl
  have hlength : ((u.map toWord).consumer i).handled.length = n := by
    rw [htake, List.length_take, length_stream]
    apply Nat.min_eq_left hle
  simp only [State.released]
  rw [hlength]
  use by omega, by omega

/-- The last event handled is the one written at its sequence. -/
theorem State.Inv.handled_last {u : State ℕ Event} (hu : u.Inv g 0) {i : ℕ}
    (hi : i < g.consumerCount) {entries : List (Event × SequenceType)}
    {entry : Event × SequenceType}
    (hhandled : ((u.map toWord).consumer i).handled = entries ++ [entry]) :
  u.producer.written[entries.length]? = some entry.1
    ∧ entry.2 = BitVec.ofNat 64 entries.length
    ∧ entries.length < u.producer.published.current
  := by
  obtain ⟨-, hle, htake⟩ := hu.handled_eq hi
  rw [hhandled, List.length_append, List.length_singleton] at htake hle
  have hget := congrArg (fun l => l[entries.length]?) htake
  simp only [List.getElem?_concat_length, List.getElem?_take_of_lt (Nat.lt_succ_self _),
    getElem?_stream] at hget
  obtain ⟨event, hevent, rfl⟩ := Option.map_eq_some_iff.mp hget.symm
  refine ⟨hevent, ?_, hle⟩
  apply BitVec.zero_add

end Disruptor
