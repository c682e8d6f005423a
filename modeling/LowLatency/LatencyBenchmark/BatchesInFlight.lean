import LowLatency.Disruptor.Lockstep
import LowLatency.Disruptor.Reuse
import LowLatency.LatencyBenchmark.DisruptorLatency

/-!
# One batch in flight

The producer waits for every consumer after each batch. So a batch is written once all consumers
have handled and released what is before it, and no publication is refused. The events written are
those which the handler expects.
-/

open Disruptor (SequenceType Geometry toWord)

namespace LatencyBenchmark

/-! ### The events written -/

section Payload

variable {payloadSize : ℕ}

/-- The writer fills in the payload which the handler expects. -/
theorem payloadIsCorrect_stamp (published index : ℕ) (now : ℕ → Int64)
    (output : Event payloadSize) :
  payloadIsCorrect (stamp published now index output) (UInt64.ofNat (published + index)) = true
  := by
  apply decide_eq_true
  intro place
  apply Vector.getElem_ofFn

/-- Every event written has the payload of its sequence. -/
def Stamped (written : List (Event payloadSize)) : Prop :=
  ∀ k event, written[k]? = some event → payloadIsCorrect event (UInt64.ofNat k) = true

theorem Stamped.concat {written : List (Event payloadSize)} (h : Stamped written)
    {event : Event payloadSize}
    (hevent : payloadIsCorrect event (UInt64.ofNat written.length) = true) :
  Stamped (written ++ [event])
  := by
  intro k event' hevent'
  rcases Nat.lt_trichotomy k written.length with hlt | rfl | hgt
  · rw [List.getElem?_append_left hlt] at hevent'
    apply h k event' hevent'
  · rw [List.getElem?_concat_length] at hevent'
    obtain rfl := Option.some.inj hevent'
    apply hevent
  · rw [List.getElem?_eq_none] at hevent'
    · cases hevent'
    · rw [List.length_append, List.length_singleton]
      omega

/-- The writer of the publication under way stamps the events from `published` on. -/
def Stamps (published : ℕ) : Disruptor.ProducerPc ℕ (Event payloadSize) → Prop
  | .loadBlocker _ writer | .scan _ writer _ _ _ | .write _ writer _ _ =>
      ∃ now, writer = stamp published now
  | .idle | .store _ => True

variable {g : Geometry} {released : ℕ → Location ℕ} {place published count : ℕ}
  {p p' : Disruptor.Producer ℕ (Event payloadSize)}

theorem stamps_begin (now : ℕ → Int64) :
  Stamps published (p.tryPublishBatch g count (stamp published now)).pc
  := by
  rw [Disruptor.Producer.tryPublishBatch]
  split
  · trivial
  · split
    · trivial
    · split
      · use now
      · use now

/-- A step of a publication writes an event with the payload of its sequence, or none. -/
theorem Stamps.resume (h : Stamps published p.pc) (hp : p.Inv g 0 released)
    (hpublished : p.published.current = published) (hstamped : Stamped p.written)
    (hresume : p.resume g.unbounded g released place = some p') :
  Stamps published p'.pc ∧ Stamped p'.written
  := by
  cases Disruptor.Producer.resumed_of_resume hresume with
  | loadBlocker c writer v hpc hload =>
      rw [hpc] at h
      rw [Disruptor.Producer.loadBlocker]
      split
      · exact ⟨trivial, hstamped⟩
      · exact ⟨h, hstamped⟩
  | skipScanned c writer greatestLag greatestLagIndex hpc =>
      rw [hpc] at h
      exact ⟨h, hstamped⟩
  | loadScanned c writer index greatestLag greatestLagIndex v hpc hindex hload =>
      rw [hpc] at h
      rw [Disruptor.Producer.loadScanned]
      split
      · exact ⟨trivial, hstamped⟩
      · split
        · exact ⟨h, hstamped⟩
        · exact ⟨h, hstamped⟩
  | endScan c writer index greatestLag greatestLagIndex hpc =>
      rw [hpc] at h
      exact ⟨h, hstamped⟩
  | write c writer first index hpc =>
      have hlength := hp.log.length
      rw [hpc] at h hlength
      obtain ⟨now, rfl⟩ := h
      rw [hpublished, Nat.zero_add] at hlength
      simp only [Disruptor.Producer.progress] at hlength
      have hwritten := Disruptor.Producer.written_write (A := g.unbounded) (g := g) (q := p) c
        (stamp published now) first index
      constructor
      · rw [Disruptor.Producer.write]
        split
        · use now
        · trivial
      · rw [hwritten]
        apply hstamped.concat
        rw [hlength]
        apply payloadIsCorrect_stamp
  | store c hpc => exact ⟨trivial, hstamped⟩

end Payload

variable {settings : Settings}

theorem zero_lt_count {published : ℕ} (hlt : published < total) :
  0 < Harness.count settings published
  := by
  have hpos := settings.batchSize_pos
  rw [Harness.count]
  omega

theorem count_le_batchSize (settings : Settings) (published : ℕ) :
  Harness.count settings published ≤ settings.batchSize
  := Nat.min_le_left _ _

theorem count_le_capacity (settings : Settings) (published : ℕ) :
  Harness.count settings published ≤ settings.geometry.capacity
  := Nat.le_trans (count_le_batchSize settings published) settings.batchSize_le

theorem add_count_le {published : ℕ} (hle : published ≤ total) :
  published + Harness.count settings published ≤ total
  := by
  have hmin := Nat.min_le_right settings.batchSize (total - published)
  rw [Harness.count]
  omega

namespace Harness

variable {s s' : Harness settings}
  {u u' : Disruptor.State ℕ (Event settings.payloadSize)}

/-! ### The invariant -/

/-- The position of consumer `index` which the producer has read last. -/
def seen (u : Disruptor.State ℕ (Event settings.payloadSize)) (index : ℕ) : ℕ :=
  Disruptor.Producer.seen u.released u.producer.views index

/-- What holds of the ring on unbounded positions, by where the producer stands. -/
def Standing (settings : Settings) (u : Disruptor.State ℕ (Event settings.payloadSize)) :
    PublisherPlace → Prop
  | .waitReady | .starting =>
      u.producer.pc = .idle ∧ u.producer.published.current = 0
  | .publish published =>
      u.producer.pc = .idle ∧ u.producer.published.current = published ∧ published < total
        ∧ ∀ index < settings.consumerCount, published ≤ seen u index
  | .publishing published =>
      u.producer.Publishing (count settings published) published
        ∧ Stamps published u.producer.pc ∧ published < total
        ∧ ∀ index < settings.consumerCount, published ≤ seen u index
  | .waitReleased published index =>
      u.producer.pc = .idle ∧ u.producer.published.current = published ∧ published ≤ total
        ∧ index < settings.consumerCount ∧ (∀ index' < index, published ≤ seen u index')
        ∧ ∀ index' < settings.consumerCount, published ≤ seen u index' + settings.batchSize
  | .joining _ | .finished _ =>
      u.producer.pc = .idle ∧ u.producer.published.current = total
        ∧ ∀ index < settings.consumerCount, total ≤ seen u index

/-- The ring stands for one on unbounded positions, in which no publication is refused. -/
structure Ring (s : Harness settings) (u : Disruptor.State ℕ (Event settings.payloadSize)) :
    Prop where
  inv : u.Inv settings.geometry 0
  stream : u.map toWord = s.stream
  standing : Standing settings u s.place
  stamped : Stamped u.producer.written
  returned : ∀ result ∈ u.producer.returned, result = true

/-- A step of the ring on words is the image of a step on unbounded positions. -/
theorem Ring.stream_step (h : s.Ring u) {a : Disruptor.Action (Event settings.payloadSize)}
    {stream : Disruptor.State SequenceType (Event settings.payloadSize)}
    (hstep : s.stream.step settings.geometry.wrapping settings.geometry a = some stream) :
  ∃ u', u.step settings.geometry.unbounded settings.geometry a = some u' ∧ u'.map toWord = stream
    ∧ u'.Inv settings.geometry 0
  := by
  rw [← h.stream, h.inv.map_step] at hstep
  obtain ⟨u', hu', hmap⟩ := Option.map_eq_some_iff.mp hstep
  use u', hu', hmap
  apply h.inv.step hu'

/-- The producer moves to another place. -/
theorem Ring.move (h : s.Ring u) (hstream : s'.stream = s.stream)
    (hstanding : Standing settings u s'.place) :
  s'.Ring u
  := by
  constructor
  · apply h.inv
  · rw [hstream, h.stream]
  · apply hstanding
  · apply h.stamped
  · apply h.returned

/-- Where the producer stands depends on what it owns and has read. -/
theorem Standing.congr {place : PublisherPlace} (h : Standing settings u place)
    (hproducer : u'.producer = u.producer)
    (hseen : ∀ index < settings.consumerCount, seen u' index = seen u index) :
  Standing settings u' place
  := by
  cases place with
  | waitReady | starting =>
      simp only [Standing, hproducer]
      apply h
  | publish published =>
      obtain ⟨hidle, hpublished, hlt, hle⟩ := h
      simp only [Standing, hproducer]
      use hidle, hpublished, hlt
      intro index hindex
      rw [hseen index hindex]
      apply hle index hindex
  | publishing published =>
      obtain ⟨hpublishing, hstamps, hlt, hle⟩ := h
      simp only [Standing, hproducer]
      use hpublishing, hstamps, hlt
      intro index hindex
      rw [hseen index hindex]
      apply hle index hindex
  | waitReleased published index =>
      obtain ⟨hidle, hpublished, htotal, hindex, hbefore, hle⟩ := h
      simp only [Standing, hproducer]
      refine ⟨hidle, hpublished, htotal, hindex, ?_, ?_⟩
      · intro index' hlt
        rw [hseen index' (Nat.lt_trans hlt hindex)]
        apply hbefore index' hlt
      · intro index' hindex'
        rw [hseen index' hindex']
        apply hle index' hindex'
  | joining _ | finished _ =>
      obtain ⟨hidle, hpublished, hle⟩ := h
      simp only [Standing, hproducer]
      use hidle, hpublished
      intro index hindex
      rw [hseen index hindex]
      apply hle index hindex

/-! ### The steps of the producer -/

theorem standing_nextBatch {published : ℕ} (hidle : u.producer.pc = .idle)
    (hpublished : u.producer.published.current = published) (hle : published ≤ total)
    (hseen : ∀ index < settings.consumerCount, published ≤ seen u index) :
  Standing settings u (nextBatch published)
  := by
  rw [nextBatch]
  split
  case isTrue hlt => exact ⟨hidle, hpublished, hlt, hseen⟩
  case isFalse hnot =>
    obtain rfl : published = total := by omega
    exact ⟨hidle, hpublished, hseen⟩

theorem standing_nextWait {published index : ℕ} (hidle : u.producer.pc = .idle)
    (hpublished : u.producer.published.current = published) (htotal : published ≤ total)
    (hle : index ≤ settings.consumerCount)
    (hbefore : ∀ index' < index, published ≤ seen u index')
    (hbatch : ∀ index' < settings.consumerCount,
      published ≤ seen u index' + settings.batchSize) :
  Standing settings u (nextWait settings published index)
  := by
  rw [nextWait]
  split
  case isTrue hlt => exact ⟨hidle, hpublished, htotal, hlt, hbefore, hbatch⟩
  case isFalse hnot =>
    obtain rfl : index = settings.consumerCount := by omega
    apply standing_nextBatch hidle hpublished htotal hbefore

/-- While its call is under way the producer stands in it. -/
theorem afterPublish_publishing (s : Harness settings) {published size position : ℕ}
    (h : u'.producer.Publishing size position) :
  s.afterPublish published (u'.map toWord)
    = { s with stream := u'.map toWord, place := .publishing published }
  := by
  have hpc : (u'.map toWord).producer.pc ≠ .idle := by
    intro hidle
    apply h.pc_ne
    apply Disruptor.Producer.pc_eq_idle hidle
  rw [Harness.afterPublish]
  split
  case h_1 hidle => cases hpc hidle
  case h_2 => rfl

/-- Once its batch is published the producer waits for the consumers. -/
theorem afterPublish_published (s : Harness settings) {published : ℕ} {results : List Bool}
    (hidle : u'.producer.pc = .idle) (hreturned : u'.producer.returned = results ++ [true]) :
  s.afterPublish published (u'.map toWord)
    = { s with
        stream := u'.map toWord
        place := nextWait settings (published + count settings published) 0 }
  := by
  have hpc : (u'.map toWord).producer.pc = .idle :=
    congrArg (Disruptor.ProducerPc.map toWord) hidle
  have hlast : (u'.map toWord).producer.returned.getLastD false = true := by
    have hmap : (u'.map toWord).producer.returned = u'.producer.returned := rfl
    rw [hmap, hreturned]
    simp
  rw [Harness.afterPublish, hpc]
  dsimp only
  rw [if_pos hlast]

/-- After a step of `try_publish_batch` the call is under way, or the batch is published. -/
theorem Ring.afterPublish (h : s.Ring u) {published : ℕ} (hinv : u'.Inv settings.geometry 0)
    (hlt : published < total)
    (hseen : ∀ index < settings.consumerCount, published ≤ seen u' index)
    (hstamps : Stamps published u'.producer.pc) (hstamped : Stamped u'.producer.written)
    (hpublish : (u'.producer.Publishing (count settings published) published
        ∧ u'.producer.returned = u.producer.returned)
      ∨ u'.producer.pc = .idle
        ∧ u'.producer.published.current = published + count settings published
        ∧ u'.producer.returned = u.producer.returned ++ [true]) :
  (s.afterPublish published (u'.map toWord)).Ring u'
  := by
  rcases hpublish with ⟨hpublishing, hreturned⟩ | ⟨hidle, hcurrent, hreturned⟩
  · rw [afterPublish_publishing s hpublishing]
    constructor
    · apply hinv
    · rfl
    · exact ⟨hpublishing, hstamps, hlt, hseen⟩
    · apply hstamped
    · rw [hreturned]
      apply h.returned
  · rw [afterPublish_published s hidle hreturned]
    constructor
    · apply hinv
    · rfl
    · apply standing_nextWait hidle hcurrent (add_count_le hlt.le) (Nat.zero_le _)
      · intro index' hindex'
        cases hindex'
      · intro index' hindex'
        have hle := hseen index' hindex'
        have hbatch := count_le_batchSize settings published
        omega
    · apply hstamped
    · rw [hreturned]
      intro result hresult
      rcases List.mem_append.mp hresult with hold | hnew
      · apply h.returned result hold
      · apply List.mem_singleton.mp hnew

/-- The producer reads the cursor of a consumer. -/
theorem Ring.observe (h : s.Ring u) {index place v : ℕ} (hindex : index < settings.consumerCount)
    (hload : (u.released index).load (u.producer.views index) place = some v) :
  ∃ u', u'.Inv settings.geometry 0 ∧ u'.consumer = u.consumer
    ∧ u'.producer.pc = u.producer.pc
    ∧ u'.producer.published = u.producer.published ∧ u'.producer.written = u.producer.written
    ∧ u'.producer.returned = u.producer.returned
    ∧ u'.map toWord = { s.stream with producer := s.stream.producer.observe index place }
    ∧ (∀ index', seen u index' ≤ seen u' index') ∧ seen u' index = v
  := by
  have hgrowing := h.inv.consumers.growing index hindex
  use { u with producer := u.producer.observe index place }
  refine ⟨?_, rfl, rfl, rfl, rfl, rfl, ?_, ?_, ?_⟩
  · constructor
    · apply h.inv.producer.observe hgrowing hload
    · apply h.inv.consumer
    · apply h.inv.outside
  · rw [← h.stream]
    rfl
  · intro index'
    apply Disruptor.Producer.seen_le_observe hgrowing hload index'
  · apply Disruptor.Producer.seen_observe hload

/-- A load of a cursor which ends the wait for a consumer has read that it has released the
batch. -/
theorem Ring.afterPosition (h : s.Ring u) {published index place : ℕ}
    (hplace : s.place = .waitReleased published index) {word : SequenceType}
    (hload : (s.stream.released index).load (s.stream.producer.views index) place = some word) :
  ∃ u', (s.afterPosition published index place).Ring u' ∧ u'.consumer = u.consumer
  := by
  obtain ⟨hidle, hpublished, htotal, hindex, hbefore, hbatch⟩ :
    Standing settings u (.waitReleased published index) := hplace ▸ h.standing
  obtain ⟨v, hv, rfl⟩ : ∃ v, (u.released index).load (u.producer.views index) place = some v
      ∧ toWord v = word := by
    rw [← h.stream] at hload
    apply Option.map_eq_some_iff.mp
    rw [← hload]
    symm
    apply Location.load_map
  obtain ⟨-, hlast, hvalue⟩ := Location.load_eq_some_iff.mp hv
  have hcurrent := (h.inv.consumers.growing index hindex).le_current hlast
  have hreleased := h.inv.consumers.current_le index hindex
  have htotal' : total < 2 ^ 64 := by decide
  have hlt : v < 2 ^ 64 := by omega
  have hnot : ¬index ≥ settings.geometry.consumerCount := Nat.not_le.mpr hindex
  have hposition : s.stream.consumerPosition settings.geometry index place = toWord v := by
    rw [← h.stream, Disruptor.State.consumerPosition, if_neg hnot, ← hvalue]
    rfl
  obtain ⟨u', hinv, hconsumer, hpc, hpublished', hwritten, hreturned, hstream, hseen, hseen'⟩ :=
    h.observe hindex hv
  refine ⟨u', ?_, hconsumer⟩
  rw [Harness.afterPosition, hposition]
  dsimp only
  rw [← hpublished'] at hpublished
  have hbatch' (index' : ℕ) (hindex' : index' < settings.consumerCount) :
      published ≤ seen u' index' + settings.batchSize := by
    apply Nat.le_trans (hbatch index' hindex')
    apply Nat.add_le_add_right (hseen index')
  split
  case isTrue =>
    constructor
    · apply hinv
    · apply hstream
    · dsimp only
      rw [hplace]
      refine ⟨hpc.trans hidle, hpublished, htotal, hindex, ?_, hbatch'⟩
      intro index' hlt
      apply Nat.le_trans (hbefore index' hlt) (hseen index')
    · rw [hwritten]
      apply h.stamped
    · rw [hreturned]
      apply h.returned
  case isFalse heq =>
    have hword := congrArg BitVec.toNat (not_not.mp heq)
    rw [BitVec.toNat_ofNat, BitVec.toNat_ofNat, Nat.mod_eq_of_lt hlt,
      Nat.mod_eq_of_lt (by omega)] at hword
    constructor
    · apply hinv
    · apply hstream
    · apply standing_nextWait (hpc.trans hidle) hpublished htotal hindex _ hbatch'
      intro index' hlt
      rcases Nat.lt_succ_iff_lt_or_eq.mp hlt with hlt | rfl
      · apply Nat.le_trans (hbefore index' hlt) (hseen index')
      · rw [hseen', hword]
    · rw [hwritten]
      apply h.stamped
    · rw [hreturned]
      apply h.returned

/-- A step of `try_publish_batch` is inside the call, or publishes the batch. -/
theorem Ring.publish_resume (h : s.Ring u) {published place : ℕ}
    (hplace : s.place = .publishing published)
    {q : Disruptor.Producer ℕ (Event settings.payloadSize)}
    (hq : u.producer.resume settings.geometry.unbounded settings.geometry u.released place
      = some q) :
  (q.Publishing (count settings published) published ∧ q.returned = u.producer.returned)
    ∨ q.pc = .idle ∧ q.published.current = published + count settings published
      ∧ q.returned = u.producer.returned ++ [true]
  := by
  obtain ⟨hpublishing, -, -, hseen⟩ : Standing settings u (.publishing published) :=
    hplace ▸ h.standing
  apply hpublishing.resume h.inv.producer (count_le_capacity settings published) _ hq
  intro index hindex v hload
  apply Nat.le_trans (hseen index hindex)
  apply h.inv.consumers.seen_le_load hindex hload

/-- The steps of the producer keep the invariant of the ring. -/
theorem Ring.stepPublisher (h : s.Ring u) {place : ℕ} {now : ℕ → Int64}
    (hstep : s.stepPublisher place now = some s') :
  ∃ u', s'.Ring u' ∧ u'.consumer = u.consumer
  := by
  have hstanding := h.standing
  rw [Harness.stepPublisher] at hstep
  cases hplace : s.place with
  | waitReady =>
      rw [hplace] at hstep hstanding
      obtain ⟨ready, -, rfl⟩ := Option.map_eq_some_iff.mp hstep
      refine ⟨u, h.move rfl ?_, rfl⟩
      dsimp only
      split
      · apply hstanding
      · apply hstanding
  | starting =>
      rw [hplace] at hstep hstanding
      obtain rfl := Option.some.inj hstep
      refine ⟨u, h.move rfl ?_, rfl⟩
      apply standing_nextBatch hstanding.1 hstanding.2 (Nat.zero_le _)
      intro index _
      apply Nat.zero_le
  | publish published =>
      rw [hplace] at hstep hstanding
      obtain ⟨stream, hstream, rfl⟩ := Option.map_eq_some_iff.mp hstep
      obtain ⟨hidle, hpublished, hlt, hseen⟩ := hstanding
      obtain ⟨u', hu', rfl, hinv⟩ := h.stream_step hstream
      use u'
      have hs' := Disruptor.State.step_publish (Or.inl rfl) hu'
      subst hs'
      refine ⟨?_, rfl⟩
      have hpos : 0 < count settings published := zero_lt_count hlt
      have hcount := count_le_capacity settings published
      have hmemory := Disruptor.Producer.sameMemory_tryPublishBatch (g := settings.geometry)
        (q := u.producer) (count settings published) (stamp published now)
      apply h.afterPublish hinv hlt
      · intro index hindex
        simp only [seen, Disruptor.Producer.views_tryPublishBatch]
        apply hseen index hindex
      · apply stamps_begin
      · dsimp only
        rw [hmemory.written]
        apply h.stamped
      · left
        use Disruptor.Producer.publishing_begin hpos hcount hpublished
        apply Disruptor.Producer.returned_tryPublishBatch hpos hcount
  | publishing published =>
      rw [hplace] at hstep hstanding
      obtain ⟨hpublishing, hstamps, hlt, hseen⟩ := hstanding
      obtain ⟨stream, hstream, rfl⟩ := Option.map_eq_some_iff.mp hstep
      obtain ⟨u', hu', rfl, hinv⟩ := h.stream_step hstream
      obtain ⟨q, hq, rfl⟩ := Disruptor.State.step_producer.mp hu'
      refine ⟨{ u with producer := q }, ?_, rfl⟩
      have hgrows := h.inv.producer.seen_le_resume h.inv.consumers hq
      obtain ⟨hstamps', hstamped'⟩ := hstamps.resume h.inv.producer hpublishing.published
        h.stamped hq
      refine h.afterPublish hinv hlt ?_ hstamps' hstamped' ?_
      · intro index hindex
        apply Nat.le_trans (hseen index hindex) (hgrows index)
      · apply h.publish_resume hplace hq
  | waitReleased published index =>
      rw [hplace] at hstep
      obtain ⟨v, hload, rfl⟩ := Option.map_eq_some_iff.mp hstep
      apply h.afterPosition hplace hload
  | joining index =>
      rw [hplace] at hstep hstanding
      dsimp only at hstep
      split at hstep
      case h_1 =>
        obtain rfl := Option.some.inj hstep
        refine ⟨u, h.move rfl ?_, rfl⟩
        dsimp only
        rw [nextJoin]
        split
        · apply hstanding
        · apply hstanding
      case h_2 => cases hstep
  | finished correct =>
      rw [hplace] at hstep
      cases hstep

/-! ### The steps of a consumer -/

/-- A step of the ring by a consumer. -/
theorem Ring.consumer_step (h : s.Ring u) {index : ℕ} {a : Disruptor.ConsumerAction}
    {stream : Disruptor.State SequenceType (Event settings.payloadSize)}
    (hstream : s.stream.step settings.geometry.wrapping settings.geometry (.consumer index a)
      = some stream)
    (hs' : s'.stream = stream) (hplace : s'.place = s.place) :
  ∃ u', u.step settings.geometry.unbounded settings.geometry (.consumer index a) = some u'
    ∧ s'.Ring u'
  := by
  obtain ⟨u', hu', hmap, hinv⟩ := h.stream_step hstream
  have hlater := Disruptor.State.later_of_step hu'
  have hproducer : u'.producer = u.producer := by
    obtain ⟨c, -, rfl⟩ := Disruptor.State.step_consumer.mp hu'
    rfl
  use u', hu'
  constructor
  · apply hinv
  · rw [hs', hmap]
  · rw [hplace]
    apply h.standing.congr hproducer
    intro index' hindex'
    simp only [seen, Disruptor.Producer.seen, hproducer]
    apply (hlater.released index').value_eq (h.inv.producer.cache.views_le index' hindex')
  · rw [hproducer]
    apply h.stamped
  · rw [hproducer]
    apply h.returned

end Harness

end LatencyBenchmark
