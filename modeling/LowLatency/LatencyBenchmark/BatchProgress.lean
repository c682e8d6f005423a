import LowLatency.Disruptor.Refinement
import LowLatency.Library.Progress
import LowLatency.LatencyBenchmark.BatchSamples

/-!
# The ring in the latency benchmark comes to an end

Whatever the threads have done, their run can go on until the main thread has joined all consumers.
The rank of a state bounds the steps left. Where the main thread waits for a consumer, a step of
that consumer decreases the rank.
-/

open Disruptor (SequenceType Geometry toWord)

namespace LatencyBenchmark

namespace Harness

variable {settings : Settings} {s s' : Harness settings}
  {u u' : Disruptor.State ℕ (Event settings.payloadSize)} {index index' : ℕ}
  {stream : Disruptor.State SequenceType (Event settings.payloadSize)} {now : Int64}

/-! ### Where the threads stand -/

/-- A thread that has not counted itself yet. -/
def unready : ReaderPlace → ℕ
  | .ready => 1
  | _ => 0

/-- Where a consumer thread stands tells whether it is in a call. In its loop there are events
left. -/
def Stands (c : Disruptor.Consumer SequenceType (Event settings.payloadSize)) (reader : Reader) :
    ReaderPlace → Prop
  | .consume => c.pc = .idle ∧ reader.consumed < total
  | .consuming => c.pc ≠ .idle ∧ reader.consumed < total
  | _ => c.pc = .idle

/-- Once the main thread has stored `start` the consumers may see it. -/
def Signals (settings : Settings) (start : Location Bool) : PublisherPlace → Prop
  | .waitReady | .starting => True
  | .joining index => start.current = true ∧ index < settings.consumerCount
  | _ => start.current = true

/-- What the steps of all threads rely on. -/
structure Live (s : Harness settings) : Prop where
  session : s.stream.producer.session.isSome = false
  handle : ∀ index < settings.consumerCount, (s.stream.consumer index).handle = none
  stands : ∀ index < settings.consumerCount,
    Stands (s.stream.consumer index) (s.reader index) (s.reader index).place
  readyView_le : s.readyView ≤ s.ready.last
  startView_le : ∀ index < settings.consumerCount, (s.reader index).startView ≤ s.start.last
  counted : (Finset.range settings.consumerCount).sum (fun index => unready (s.reader index).place)
    + s.ready.current = settings.consumerCount
  signals : Signals settings s.start s.place

theorem live_init (settings : Settings) :
  (init settings).Live
  := by
  constructor
  · rfl
  · intro index _
    rfl
  · intro index _
    rfl
  · apply Nat.le_refl
  · intro index _
    apply Nat.le_refl
  · simp [init, unready, Location.init, Location.current]
  · trivial

/-! ### The main thread -/

theorem signals_nextBatch {start : Location Bool} (hstart : start.current = true)
    (published : ℕ) :
  Signals settings start (nextBatch published)
  := by
  rw [nextBatch]
  split
  · apply hstart
  · use hstart
    apply settings.consumerCount_pos

theorem signals_nextWait {start : Location Bool} (hstart : start.current = true)
    (published index : ℕ) :
  Signals settings start (nextWait settings published index)
  := by
  rw [nextWait]
  split
  · apply hstart
  · apply signals_nextBatch hstart

/-- The main thread moves. -/
theorem Live.movePublisher (h : s.Live)
    {place : PublisherPlace} {readyView : ℕ} {start : Location Bool}
    (hconsumer : stream.consumer = s.stream.consumer)
    (hsession : stream.producer.session.isSome = s.stream.producer.session.isSome)
    (hready : readyView ≤ s.ready.last) (hstart : s.start.last ≤ start.last)
    (hsignals : Signals settings start place) :
  Live
    { s with stream := stream, place := place, readyView := readyView, start := start }
  := by
  constructor
  · rw [hsession]
    apply h.session
  · rw [hconsumer]
    apply h.handle
  · rw [hconsumer]
    apply h.stands
  · apply hready
  · intro index hindex
    apply Nat.le_trans (h.startView_le index hindex) hstart
  · apply h.counted
  · apply hsignals

theorem Live.afterPublish (h : s.Live) {published : ℕ}
    (hconsumer : stream.consumer = s.stream.consumer)
    (hsession : stream.producer.session.isSome = s.stream.producer.session.isSome)
    (hstart : s.start.current = true) :
  (s.afterPublish published stream).Live
  := by
  rw [Harness.afterPublish]
  split
  · split
    · exact h.movePublisher hconsumer hsession h.readyView_le (Nat.le_refl _)
        (signals_nextWait hstart _ _)
    · exact h.movePublisher hconsumer hsession h.readyView_le (Nat.le_refl _) hstart
  · exact h.movePublisher hconsumer hsession h.readyView_le (Nat.le_refl _) hstart

theorem Live.stepPublisher (h : s.Live) {place : ℕ} {now : ℕ → Int64}
    (hstep : s.stepPublisher place now = some s') :
  s'.Live
  := by
  have hsignals := h.signals
  rw [Harness.stepPublisher] at hstep
  cases hplace : s.place with
  | waitReady =>
      rw [hplace] at hstep
      obtain ⟨ready, hload, rfl⟩ := Option.map_eq_some_iff.mp hstep
      obtain ⟨-, hlast, -⟩ := Location.load_eq_some_iff.mp hload
      apply h.movePublisher rfl rfl hlast (Nat.le_refl _)
      split
      · trivial
      · trivial
  | starting =>
      rw [hplace] at hstep
      obtain rfl := Option.some.inj hstep
      apply h.movePublisher rfl rfl h.readyView_le (Nat.le_succ _)
      apply signals_nextBatch
      apply Location.current_store
  | publish published =>
      rw [hplace] at hstep hsignals
      obtain ⟨stream, hstream, rfl⟩ := Option.map_eq_some_iff.mp hstep
      have hs' := Disruptor.State.step_publish (Or.inl rfl) hstream
      subst hs'
      refine h.afterPublish rfl ?_ hsignals
      apply (Disruptor.Producer.sameHandles_tryPublishBatch _ _).isSome
  | publishing published =>
      rw [hplace] at hstep hsignals
      obtain ⟨stream, hstream, rfl⟩ := Option.map_eq_some_iff.mp hstep
      obtain ⟨q, hq, rfl⟩ := Disruptor.State.step_producer.mp hstream
      refine h.afterPublish rfl ?_ hsignals
      apply (Disruptor.Producer.sameHandles_resume hq).isSome
  | waitReleased published index =>
      rw [hplace] at hstep hsignals
      obtain ⟨v, -, rfl⟩ := Option.map_eq_some_iff.mp hstep
      rw [Harness.afterPosition]
      dsimp only
      split
      · exact h.movePublisher rfl rfl h.readyView_le (Nat.le_refl _) h.signals
      · exact h.movePublisher rfl rfl h.readyView_le (Nat.le_refl _)
          (signals_nextWait hsignals _ _)
  | joining index =>
      rw [hplace] at hstep hsignals
      dsimp only at hstep
      split at hstep
      case h_1 =>
        obtain rfl := Option.some.inj hstep
        apply h.movePublisher rfl rfl h.readyView_le (Nat.le_refl _)
        rw [nextJoin]
        split
        case isTrue hlt => exact ⟨hsignals.1, hlt⟩
        case isFalse => apply hsignals.1
      case h_2 => cases hstep
  | finished correct =>
      rw [hplace] at hstep
      cases hstep

/-! ### A consumer thread -/

/-- What a step of the thread of consumer `index` leaves. -/
structure Leaves (s : Harness settings) (index : ℕ) (s' : Harness settings) : Prop where
  place : s'.place = s.place
  readyView : s'.readyView = s.readyView
  start : s'.start = s.start
  producer : s'.stream.producer = s.stream.producer
  reader : ∀ index', index' ≠ index → s'.reader index' = s.reader index'
  consumer : ∀ index', index' ≠ index → s'.stream.consumer index' = s.stream.consumer index'

theorem Leaves.trans {t : Harness settings} (h : s.Leaves index t) (h' : t.Leaves index s') :
  s.Leaves index s'
  := by
  constructor
  · rw [h'.place, h.place]
  · rw [h'.readyView, h.readyView]
  · rw [h'.start, h.start]
  · rw [h'.producer, h.producer]
  · intro index' hne
    rw [h'.reader index' hne, h.reader index' hne]
  · intro index' hne
    rw [h'.consumer index' hne, h.consumer index' hne]

/-- What a step in the loop of consumer `index` leaves. -/
structure Loops (s : Harness settings) (index : ℕ) (s' : Harness settings) : Prop
    extends Leaves s index s' where
  ready : s'.ready = s.ready
  startView : (s'.reader index).startView = (s.reader index).startView

theorem Loops.trans {t : Harness settings} (h : s.Loops index t) (h' : t.Loops index s') :
  s.Loops index s'
  := by
  use h.toLeaves.trans h'.toLeaves
  · rw [h'.ready, h.ready]
  · rw [h'.startView, h.startView]

theorem leaves_setReader (s : Harness settings) (index : ℕ) (reader : Reader) :
  s.Leaves index (s.setReader index reader)
  := by
  constructor
  · rfl
  · rfl
  · rfl
  · rfl
  · intro index' hne
    simp only [setReader, Function.update_of_ne hne]
  · intro index' _
    rfl

theorem loops_setReader {reader : Reader}
    (hview : reader.startView = (s.reader index).startView) :
  s.Loops index (s.setReader index reader)
  := by
  use leaves_setReader s index reader, rfl
  simp only [setReader, Function.update_self, hview]

theorem loops_nextConsume (s : Harness settings) (index consumed : ℕ) :
  s.Loops index (s.nextConsume index consumed)
  := by
  rw [nextConsume]
  split
  · apply loops_setReader
    rfl
  · have hloops : s.Loops index (s.setReader index
        { s.reader index with consumed := consumed, place := .finished }) := loops_setReader rfl
    exact ⟨⟨rfl, rfl, rfl, rfl, hloops.reader, hloops.consumer⟩, rfl, hloops.startView⟩

/-- A step of the ring by consumer `index`. -/
theorem loops_stream (hproducer : stream.producer = s.stream.producer)
    (hconsumer : ∀ index', index' ≠ index → stream.consumer index' = s.stream.consumer index') :
  s.Loops index { s with stream := stream }
  := ⟨⟨rfl, rfl, rfl, hproducer, fun _ _ => rfl, hconsumer⟩, rfl, rfl⟩

theorem loops_afterConsume (s : Harness settings) (index : ℕ)
    (stream : Disruptor.State SequenceType (Event settings.payloadSize)) :
  Loops { s with stream := stream } index (s.afterConsume index stream)
  := by
  rw [Harness.afterConsume]
  split
  · apply loops_nextConsume
  · apply loops_setReader
    rfl

theorem loops_handled (s : Harness settings) (index : ℕ) (now : Int64)
    (stream : Disruptor.State SequenceType (Event settings.payloadSize)) :
  s.Loops index (s.handled index now stream)
    ∧ (s.handled index now stream).stream = s.stream
    ∧ ((s.handled index now stream).reader index).consumed = (s.reader index).consumed
  := by
  rw [Harness.handled]
  split
  · refine ⟨⟨⟨rfl, rfl, rfl, rfl, ?_, fun _ _ => rfl⟩, rfl, ?_⟩, rfl, ?_⟩
    · intro index' hne
      simp only [Harness.handler, Function.update_of_ne hne]
    all_goals simp only [Harness.handler, Function.update_self]
  · exact ⟨⟨⟨rfl, rfl, rfl, rfl, fun _ _ => rfl, fun _ _ => rfl⟩, rfl, rfl⟩, rfl, rfl⟩

/-- At the head of its loop a consumer is outside its calls. -/
theorem stands_nextConsume {consumed : ℕ} (hpc : (s.stream.consumer index).pc = .idle) :
  Stands (s.stream.consumer index) ((s.nextConsume index consumed).reader index)
      ((s.nextConsume index consumed).reader index).place
    ∧ unready ((s.nextConsume index consumed).reader index).place = 0
  := by
  rw [nextConsume]
  split
  case isTrue hlt =>
    simp only [setReader, Function.update_self, Stands, unready]
    use ⟨hpc, hlt⟩
  case isFalse =>
    simp only [setReader, Function.update_self, Stands, unready]
    use hpc

/-- After a step of its call a consumer stands in it, or at the head of its loop. -/
theorem stands_afterConsume (hlt : (s.reader index).consumed < total) :
  Stands (stream.consumer index) ((s.afterConsume index stream).reader index)
      ((s.afterConsume index stream).reader index).place
    ∧ unready ((s.afterConsume index stream).reader index).place = 0
  := by
  rw [Harness.afterConsume]
  split
  case h_1 hpc => exact stands_nextConsume (s := { s with stream := stream }) hpc
  case h_2 hpc =>
    simp only [setReader, Function.update_self, Stands, unready]
    use ⟨hpc, hlt⟩

/-- The thread of consumer `index` moves. -/
theorem Live.moveReader (h : s.Live) (hindex : index < settings.consumerCount)
    (hleaves : s.Leaves index s') (hready : s.ready.last ≤ s'.ready.last)
    (hcounted : unready (s'.reader index).place + s'.ready.current
      = unready (s.reader index).place + s.ready.current)
    (hhandle : (s'.stream.consumer index).handle = none)
    (hview : (s'.reader index).startView ≤ s.start.last)
    (hstands : Stands (s'.stream.consumer index) (s'.reader index) (s'.reader index).place) :
  s'.Live
  := by
  constructor
  · rw [hleaves.producer]
    apply h.session
  · intro index' hindex'
    by_cases hne : index' = index
    · subst hne
      apply hhandle
    · rw [hleaves.consumer index' hne]
      apply h.handle index' hindex'
  · intro index' hindex'
    by_cases hne : index' = index
    · subst hne
      apply hstands
    · rw [hleaves.consumer index' hne, hleaves.reader index' hne]
      apply h.stands index' hindex'
  · rw [hleaves.readyView]
    apply Nat.le_trans h.readyView_le hready
  · intro index' hindex'
    rw [hleaves.start]
    by_cases hne : index' = index
    · subst hne
      apply hview
    · rw [hleaves.reader index' hne]
      apply h.startView_le index' hindex'
  · have hsum := TransitionSystem.sum_change (f := fun index => unready (s.reader index).place)
      (g := fun index => unready (s'.reader index).place) (Finset.mem_range.mpr hindex)
      fun index' hne => congrArg (fun reader => unready reader.place) (hleaves.reader index' hne)
    have hbefore := h.counted
    omega
  · rw [hleaves.start, hleaves.place]
    apply h.signals

/-- The thread of consumer `index` goes on in its loop. -/
theorem Live.loop (h : s.Live) (hindex : index < settings.consumerCount)
    (hloops : s.Loops index s') (hbefore : unready (s.reader index).place = 0)
    (hhandle : (s'.stream.consumer index).handle = none)
    (hstands : Stands (s'.stream.consumer index) (s'.reader index) (s'.reader index).place
      ∧ unready (s'.reader index).place = 0) :
  s'.Live
  := by
  apply h.moveReader hindex hloops.toLeaves _ _ hhandle _ hstands.1
  · rw [hloops.ready]
  · rw [hloops.ready, hbefore, hstands.2]
  · rw [hloops.startView]
    apply h.startView_le index hindex

/-- A step of the ring by a consumer leaves the producer and the other consumers. -/
theorem loops_of_consumer {a : Disruptor.ConsumerAction}
    (hstream : s.stream.step settings.geometry.wrapping settings.geometry (.consumer index a)
      = some stream) :
  s.Loops index { s with stream := stream }
  := by
  have hother (index' : ℕ) (hne : index' ≠ index) := consumer_of_consumer hstream hne
  obtain ⟨c, -, rfl⟩ := Disruptor.State.step_consumer.mp hstream
  exact loops_stream rfl hother

/-- A step of a call, in which the handler may be called. -/
theorem loops_consuming {place : ℕ} (now : Int64)
    (hstream : s.stream.step settings.geometry.wrapping settings.geometry
      (.consumer index (.resume place)) = some stream) :
  s.Loops index ((s.handled index now stream).afterConsume index stream)
  := by
  obtain ⟨hloops, hstream', -⟩ := loops_handled s index now stream
  have hring : (s.handled index now stream).stream.step settings.geometry.wrapping
      settings.geometry (.consumer index (.resume place)) = some stream := by
    rw [hstream', hstream]
  apply hloops.trans
  apply (loops_of_consumer hring).trans
  apply loops_afterConsume

theorem Live.stepReader (h : s.Live) {place : ℕ} (hindex : index < settings.consumerCount)
    (hstep : s.stepReader index place now = some s') :
  s'.Live
  := by
  have hstands := h.stands index hindex
  have hhandle := h.handle index hindex
  rw [Harness.stepReader] at hstep
  cases hplace : (s.reader index).place with
  | ready =>
      rw [hplace] at hstep hstands
      obtain rfl := Option.some.inj hstep
      apply h.moveReader hindex
      · exact ⟨rfl, rfl, rfl, rfl, (leaves_setReader s index _).reader, fun _ _ => rfl⟩
      · apply Nat.le_succ
      · simp only [setReader, Function.update_self, hplace, unready, Location.current_store]
        omega
      · apply hhandle
      · simp only [setReader, Function.update_self]
        apply h.startView_le index hindex
      · simp only [setReader, Function.update_self]
        apply hstands
  | waitStart =>
      rw [hplace] at hstep hstands
      obtain ⟨start, hload, rfl⟩ := Option.map_eq_some_iff.mp hstep
      obtain ⟨-, hlast, -⟩ := Location.load_eq_some_iff.mp hload
      have hlive : (s.setReader index { s.reader index with startView := place }).Live := by
        apply h.moveReader hindex (leaves_setReader s index _) (Nat.le_refl _)
        · simp only [setReader, Function.update_self]
        · apply hhandle
        · simp only [setReader, Function.update_self]
          apply hlast
        · simp only [setReader, Function.update_self, hplace]
          apply hstands
      dsimp only
      split
      · apply hlive.loop hindex (loops_nextConsume _ index 0)
        · simp only [setReader, Function.update_self, hplace, unready]
        · rw [stream_nextConsume]
          apply hhandle
        · rw [stream_nextConsume]
          exact stands_nextConsume (s := s.setReader index _) hstands
      · apply hlive
  | consume =>
      rw [hplace] at hstep hstands
      obtain ⟨stream, hstream, rfl⟩ := Option.map_eq_some_iff.mp hstep
      have hloops := (loops_of_consumer hstream).trans (loops_afterConsume s index stream)
      have hafter := (moves_afterConsume s index stream).2
      apply h.loop hindex hloops
      · rw [hplace]
        rfl
      · obtain ⟨-, -, -, hsame⟩ := begin_of_consume hindex hstream
        rw [hafter, hsame, hhandle]
      · rw [hafter]
        apply stands_afterConsume hstands.2
  | consuming =>
      rw [hplace] at hstep hstands
      obtain ⟨stream, hstream, rfl⟩ := Option.map_eq_some_iff.mp hstep
      obtain ⟨-, -, hconsumed⟩ := loops_handled s index now stream
      have hafter := (moves_afterConsume (s.handled index now stream) index stream).2
      apply h.loop hindex (loops_consuming now hstream)
      · rw [hplace]
        rfl
      · rw [hafter]
        obtain ⟨c, hc, rfl⟩ := Disruptor.State.step_consumer.mp hstream
        simp only [Function.update_self]
        apply Disruptor.Consumer.handle_resume hhandle hc
      · rw [hafter]
        apply stands_afterConsume
        rw [hconsumed]
        apply hstands.2
  | finished =>
      rw [hplace] at hstep
      cases hstep

/-! ### What is left for a consumer -/

section Rank

variable {P Q : Type}

/-- The steps left until the handler is called on the next event, and the loop around the call. -/
def callRank : Disruptor.ConsumerPc P → ℕ
  | .idle => 3
  | .loadCursor _ => 2
  | .loadPublished _ _ => 1
  | .handle _ _ _ => 0
  | .running _ _ _ => 5
  | .store _ _ => 4

/-- The rank of a consumer thread. -/
def readerRank (c : Disruptor.Consumer P (Event settings.payloadSize)) : ReaderPlace → ℕ
  | .ready => 6 * (total - c.handled.length) + 5
  | .waitStart => 6 * (total - c.handled.length) + 4
  | .consume | .consuming => 6 * (total - c.handled.length) + callRank c.pc
  | .finished => 0

theorem readerRank_map (f : P → Q) (c : Disruptor.Consumer P (Event settings.payloadSize))
    (place : ReaderPlace) :
  readerRank (c.map f) place = readerRank c place
  := by
  have hlength : (c.map f).handled.length = c.handled.length := by
    simp only [Disruptor.Consumer.map, List.length_map]
  have hcall : callRank (c.map f).pc = callRank c.pc := by
    rw [Disruptor.Consumer.map]
    cases c.pc
    all_goals rfl
  cases place
  all_goals simp only [readerRank, hlength, hcall]

/-- A step of a call which reads that there are events available decreases the rank. -/
theorem rank_resume {A : Disruptor.PositionArithmetic P} {g : Geometry}
    {events : ℕ → Event settings.payloadSize} {published : Location P} {place : ℕ}
    {c c' : Disruptor.Consumer P (Event settings.payloadSize)}
    (h : c.resume A g events published place = some c') (hle : c'.handled.length ≤ total)
    (hread : ∀ first maxCount v, c.pc = .loadPublished first maxCount →
      published.load c.view place = some v → A.distance v first ≠ 0) :
  readerRank c' .consuming < readerRank c .consuming
  := by
  cases Disruptor.Consumer.resumed_of_resume h with
  | loadCursor maxCount hpc =>
      simp only [readerRank, hpc, Disruptor.Consumer.goto, callRank]
      omega
  | loadPublished first maxCount v hpc hload =>
      have havailable := hread first maxCount v hpc hload
      rw [Disruptor.Consumer.loadPublished, if_neg havailable]
      simp only [readerRank, hpc, Disruptor.Consumer.begin, Disruptor.Consumer.goto, callRank]
      omega
  | handle first count index hpc =>
      simp only [Disruptor.Consumer.enter, List.length_append, List.length_singleton] at hle
      simp only [readerRank, hpc, Disruptor.Consumer.enter, List.length_append,
        List.length_singleton, callRank]
      omega
  | running first count index hpc =>
      rw [Disruptor.Consumer.leave]
      split
      · simp only [readerRank, hpc, Disruptor.Consumer.goto, callRank]
        omega
      · simp only [readerRank, hpc, callRank]
        omega
  | store first count hpc =>
      simp only [readerRank, hpc, Disruptor.Consumer.store, Disruptor.Consumer.finish, callRank]
      omega

end Rank

/-- At the head of its loop a consumer has at most the rank of a call that has returned. -/
theorem rank_nextConsume (s : Harness settings) (index consumed : ℕ) :
  readerRank (s.stream.consumer index) ((s.nextConsume index consumed).reader index).place
    ≤ readerRank (s.stream.consumer index) .consuming
  := by
  rw [nextConsume]
  split
  · simp only [setReader, Function.update_self, readerRank]
    omega
  · simp only [setReader, Function.update_self, readerRank]
    omega

theorem rank_afterConsume (s : Harness settings) (index : ℕ)
    (stream : Disruptor.State SequenceType (Event settings.payloadSize)) :
  readerRank ((s.afterConsume index stream).stream.consumer index)
      ((s.afterConsume index stream).reader index).place
    ≤ readerRank (stream.consumer index) .consuming
  := by
  rw [(moves_afterConsume s index stream).2, Harness.afterConsume]
  split
  case h_1 => apply rank_nextConsume { s with stream := stream }
  case h_2 =>
    simp only [setReader, Function.update_self]
    apply Nat.le_refl

/-- A call of a consumer that lags behind has a next step which decreases its rank. -/
theorem Ring.exists_resume (h : s.Ring u) (hindex : index < settings.consumerCount)
    (hpc : (s.stream.consumer index).pc ≠ .idle)
    (hlag : (u.released index).current < u.producer.published.current) :
  ∃ place stream, s.stream.step settings.geometry.wrapping settings.geometry
      (.consumer index (.resume place)) = some stream
    ∧ readerRank (stream.consumer index) .consuming
      < readerRank (s.stream.consumer index) .consuming
  := by
  have hidle : (u.consumer index).pc ≠ .idle := by
    intro hidle
    apply hpc
    rw [← h.stream]
    simp only [Disruptor.State.map, Disruptor.Consumer.map, hidle]
    rfl
  obtain ⟨u', hu'⟩ := h.inv.exists_resumeConsumer hindex hidle
  rw [Disruptor.State.resumeConsumer] at hu'
  have hcurrent := h.standing.current_le
  obtain ⟨-, hle, -⟩ := (h.inv.step hu').handled_eq hindex
  use u.producer.published.last, u'.map toWord
  rw [← h.stream, h.inv.map_step, hu']
  use rfl
  obtain ⟨c, hc, rfl⟩ := Disruptor.State.step_consumer.mp hu'
  simp only [Disruptor.State.map, readerRank_map, Function.update_self] at hle ⊢
  apply rank_resume hc
  · rw [Disruptor.Consumer.map, List.length_map] at hle
    omega
  · intro first maxCount v hpc' hload
    obtain ⟨-, -, rfl⟩ := Location.load_eq_some_iff.mp hload
    have hat := (h.inv.consumer index hindex).atPc
    rw [hpc'] at hat
    obtain ⟨rfl, -⟩ := hat
    rw [Geometry.unbounded_distance]
    apply Nat.sub_ne_zero_of_lt hlag

/-- A consumer outside its calls may call `consume_available`. -/
theorem Live.exists_consume (h : s.Live) (hindex : index < settings.consumerCount)
    (hpc : (s.stream.consumer index).pc = .idle) :
  ∃ stream, s.stream.step settings.geometry.wrapping settings.geometry
    (.consumer index (.consume settings.batchSize)) = some stream
  := by
  have hpos := settings.batchSize_pos
  have hnot : ¬(index ≥ settings.geometry.consumerCount ∨ settings.batchSize = 0) := by
    have hcount : settings.geometry.consumerCount = settings.consumerCount := rfl
    omega
  have hstep : (s.stream.consumer index).step settings.geometry.wrapping settings.geometry
      s.stream.producer.events s.stream.producer.published index (.consume settings.batchSize)
        = some ((s.stream.consumer index).goto (.loadCursor settings.batchSize)) := by
    simp only [Disruptor.Consumer.step, hpc, h.handle index hindex, if_neg hnot]
  exact ⟨_, Disruptor.State.step_consumer.mpr ⟨_, hstep, rfl⟩⟩

/-- A consumer thread that is not ready or lags behind has a next step which decreases its rank. -/
theorem Sound.reader_advances (h : s.Sound u) (hlive : s.Live)
    (hindex : index < settings.consumerCount)
    (hlags : (s.reader index).place = .ready ∨ s.start.current = true
      ∧ (u.released index).current < u.producer.published.current) :
  ∃ place s', s.stepReader index place 0 = some s'
    ∧ readerRank (s'.stream.consumer index) (s'.reader index).place
      < readerRank (s.stream.consumer index) (s.reader index).place
  := by
  have hstands := hlive.stands index hindex
  have hlag (hplace : (s.reader index).place ≠ .ready) := hlags.resolve_left hplace
  cases hplace : (s.reader index).place with
  | ready =>
      simp only [Harness.stepReader, hplace, Option.some.injEq, exists_eq_left']
      use 0
      simp only [setReader, Function.update_self, readerRank]
      omega
  | waitStart =>
      rw [hplace] at hstands
      obtain ⟨hstart, -⟩ := hlag (by simp [hplace])
      simp only [Harness.stepReader, hplace]
      use s.start.last
      rw [Location.load_last (hlive.startView_le index hindex)]
      simp only [hstart, Option.map_some, Option.some.injEq, exists_eq_left', if_true]
      rw [stream_nextConsume]
      apply Nat.lt_of_le_of_lt (rank_nextConsume (s.setReader index _) index 0)
      have hpc : (s.stream.consumer index).pc = .idle := hstands
      simp only [readerRank, setReader, hpc, callRank]
      omega
  | consume =>
      rw [hplace] at hstands
      obtain ⟨hpc, -⟩ := hstands
      obtain ⟨stream, hstream⟩ := hlive.exists_consume hindex hpc
      obtain ⟨hpc', -, hhandled, -⟩ := begin_of_consume hindex hstream
      use 0, s.afterConsume index stream
      simp only [Harness.stepReader, hplace, hstream, Option.map_some, true_and]
      have hle := rank_afterConsume s index stream
      simp only [readerRank, hpc, hpc', hhandled, callRank] at hle ⊢
      omega
  | consuming =>
      rw [hplace] at hstands
      obtain ⟨-, hlag⟩ := hlag (by simp [hplace])
      obtain ⟨place, stream, hstream, hlt⟩ := h.ring.exists_resume hindex hstands.1 hlag
      use place, (s.handled index 0 stream).afterConsume index stream
      simp only [Harness.stepReader, hplace, hstream, Option.map_some, true_and]
      apply Nat.lt_of_le_of_lt (rank_afterConsume _ index stream) hlt
  | finished =>
      obtain ⟨-, hlag⟩ := hlag (by simp [hplace])
      obtain ⟨hreleased, -⟩ : s.Seat u index .finished := hplace ▸ h.seat index hindex
      have hcurrent := h.ring.standing.current_le
      omega

theorem leaves_stepReader {place : ℕ} (hstep : s.stepReader index place now = some s') :
  s.Leaves index s'
  := by
  rw [Harness.stepReader] at hstep
  split at hstep
  case h_1 =>
    obtain rfl := Option.some.inj hstep
    exact ⟨rfl, rfl, rfl, rfl, (leaves_setReader s index _).reader, fun _ _ => rfl⟩
  case h_2 =>
    obtain ⟨start, -, rfl⟩ := Option.map_eq_some_iff.mp hstep
    have hleaves := leaves_setReader s index { s.reader index with startView := place }
    dsimp only
    split
    · apply hleaves.trans (loops_nextConsume _ index 0).toLeaves
    · apply hleaves
  case h_3 =>
    obtain ⟨stream, hstream, rfl⟩ := Option.map_eq_some_iff.mp hstep
    exact ((loops_of_consumer hstream).trans (loops_afterConsume s index stream)).toLeaves
  case h_4 =>
    obtain ⟨stream, hstream, rfl⟩ := Option.map_eq_some_iff.mp hstep
    apply (loops_consuming now hstream).toLeaves
  case h_5 => cases hstep

/-! ### What is left for the main thread -/

/-- What the main thread may need for a batch. -/
def weight (settings : Settings) : ℕ :=
  2 * settings.consumerCount + 1030

/-- A batch takes its weight off what is left. -/
theorem weight_le (settings : Settings) {published : ℕ} (hlt : published < total) :
  weight settings * (total - (published + count settings published)) + weight settings
    ≤ weight settings * (total - published)
  := by
  have hpos : 0 < count settings published := zero_lt_count hlt
  rw [← Nat.mul_succ]
  apply Nat.mul_le_mul_left
  omega

/-- The rank of the main thread, which stands at `pc` in a call. -/
def publisherRank (settings : Settings)
    (pc : Disruptor.ProducerPc SequenceType (Event settings.payloadSize)) : PublisherPlace → ℕ
  | .waitReady => weight settings * total + settings.consumerCount + 5
  | .starting => weight settings * total + settings.consumerCount + 4
  | .publish published => weight settings * (total - published) + settings.consumerCount + 3
  | .publishing published =>
      weight settings * (total - (published + count settings published))
        + 2 * settings.consumerCount + 4 + Disruptor.Producer.remaining settings.geometry pc
  | .waitReleased published index =>
      weight settings * (total - published) + settings.consumerCount + 3
        + (settings.consumerCount - index)
  | .joining index => settings.consumerCount - index + 1
  | .finished _ => 0

/-- The rank of a state. -/
def rank (s : Harness settings) : ℕ :=
  publisherRank settings s.stream.producer.pc s.place
    + (Finset.range settings.consumerCount).sum fun index =>
        readerRank (s.stream.consumer index) (s.reader index).place

theorem rank_nextBatch (pc : Disruptor.ProducerPc SequenceType (Event settings.payloadSize))
    (published : ℕ) :
  publisherRank settings pc (nextBatch published)
    ≤ weight settings * (total - published) + settings.consumerCount + 3
  := by
  rw [nextBatch]
  split
  · apply Nat.le_refl
  · simp only [publisherRank]
    omega

theorem rank_nextWait (pc : Disruptor.ProducerPc SequenceType (Event settings.payloadSize))
    (published index : ℕ) :
  publisherRank settings pc (nextWait settings published index)
    ≤ weight settings * (total - published) + settings.consumerCount + 3
      + (settings.consumerCount - index)
  := by
  rw [nextWait]
  split
  · apply Nat.le_refl
  · apply Nat.le_trans (rank_nextBatch pc published)
    omega

/-- A step of the main thread that decreases its rank decreases the rank of the state. -/
theorem rank_publisher {place : ℕ} {now : ℕ → Int64}
    (hstep : s.stepPublisher place now = some s')
    (hlt : publisherRank settings s'.stream.producer.pc s'.place
      < publisherRank settings s.stream.producer.pc s.place) :
  ∃ a s', s.step a = some s' ∧ s'.rank < s.rank
  := by
  have hframe := frame_stepPublisher hstep
  use .publisher place now, s', hstep
  rw [rank, rank, hframe.reader, hframe.consumer]
  omega

/-- A step of a consumer thread that decreases its rank decreases the rank of the state. -/
theorem Sound.rank_reader (h : s.Sound u) (hlive : s.Live)
    (hindex : index < settings.consumerCount)
    (hlags : (s.reader index).place = .ready ∨ s.start.current = true
      ∧ (u.released index).current < u.producer.published.current) :
  ∃ a s', s.step a = some s' ∧ s'.rank < s.rank
  := by
  obtain ⟨place, s', hstep, hlt⟩ := h.reader_advances hlive hindex hlags
  have hleaves := leaves_stepReader hstep
  have hsum := TransitionSystem.sum_change
    (f := fun index => readerRank (s.stream.consumer index) (s.reader index).place)
    (g := fun index => readerRank (s'.stream.consumer index) (s'.reader index).place)
    (Finset.mem_range.mpr hindex)
    fun index' hne => by rw [hleaves.consumer index' hne, hleaves.reader index' hne]
  use .reader index place 0, s'
  constructor
  · rw [Harness.step, if_pos hindex, hstep]
  · rw [rank, rank, hleaves.place, hleaves.producer]
    omega

/-- A consumer that is still in its loop has events left to release. -/
theorem Sound.released_lt (h : s.Sound u) (hlive : s.Live)
    (hindex : index < settings.consumerCount) (hplace : (s.reader index).place ≠ .finished) :
  (u.released index).current < total
  := by
  have hseat := h.seat index hindex
  have hstands := hlive.stands index hindex
  have hpos := total_pos
  cases hs : (s.reader index).place with
  | ready | waitStart =>
      rw [hs, Seat] at hseat
      omega
  | consume | consuming =>
      rw [hs] at hseat hstands
      rw [Seat] at hseat
      have hlt := hstands.2
      omega
  | finished => cases hplace hs

/-- When every consumer has counted itself, all are counted. -/
theorem Live.ready_eq (h : s.Live)
    (hall : ∀ index < settings.consumerCount, (s.reader index).place ≠ .ready) :
  s.ready.current = settings.consumerCount
  := by
  have hcounted := h.counted
  rw [Finset.sum_eq_zero, Nat.zero_add] at hcounted
  · apply hcounted
  · intro index hindex
    have hplace := hall index (Finset.mem_range.mp hindex)
    cases hs : (s.reader index).place with
    | ready => cases hplace hs
    | _ => rfl

/-- The producer outside its calls may call `try_publish_batch`. -/
theorem Live.exists_publish (h : s.Live) (hpc : s.stream.producer.pc = .idle) (size : ℕ)
    (writer : Disruptor.Writer (Event settings.payloadSize)) :
  ∃ stream, s.stream.step settings.geometry.wrapping settings.geometry
    (.producer (.publish size writer)) = some stream
  := by
  have hsession := Option.isSome_eq_false_iff.mp h.session
  rw [Option.isNone_iff_eq_none] at hsession
  have hstep : s.stream.producer.step settings.geometry.wrapping settings.geometry
      s.stream.released (.publish size writer)
        = some (s.stream.producer.tryPublishBatch settings.geometry size writer) := by
    simp only [Disruptor.Producer.step, hpc, hsession]
  exact ⟨_, Disruptor.State.step_producer.mpr ⟨_, hstep, rfl⟩⟩

/-- The main thread publishes the next batch. -/
theorem Sound.publish_advances (h : s.Sound u) (hlive : s.Live) {published : ℕ}
    (hplace : s.place = .publish published) :
  ∃ a s', s.step a = some s' ∧ s'.rank < s.rank
  := by
  obtain ⟨hidle, hpublished, hlt, -⟩ : Standing settings u (.publish published) :=
    hplace ▸ h.ring.standing
  have hpc : s.stream.producer.pc = .idle := by
    rw [← h.ring.stream]
    exact congrArg (Disruptor.ProducerPc.map toWord) hidle
  have hpos : 0 < count settings published := zero_lt_count hlt
  have hcount := count_le_capacity settings published
  let writer : Disruptor.Writer (Event settings.payloadSize) := stamp published fun _ => 0
  obtain ⟨stream, hstream⟩ := hlive.exists_publish hpc (count settings published) writer
  obtain ⟨u', hu', rfl, -⟩ := h.ring.stream_step hstream
  have hpublishing : u'.producer.Publishing (count settings published) published := by
    rw [Disruptor.State.step_publish (Or.inl rfl) hu']
    apply Disruptor.Producer.publishing_begin hpos hcount hpublished
  have hremaining : Disruptor.Producer.remaining settings.geometry (u'.map toWord).producer.pc
      ≤ settings.geometry.consumerCount + count settings published + 4 := by
    rw [Disruptor.State.step_publish (Or.inl rfl) hstream]
    apply Disruptor.Producer.remaining_tryPublishBatch hpos hcount
  have hstep : s.stepPublisher 0 (fun _ => 0)
      = some { s with stream := u'.map toWord, place := .publishing published } := by
    rw [← afterPublish_publishing s hpublishing]
    simp only [Harness.stepPublisher, hplace, writer, hstream, Option.map_some]
  apply rank_publisher hstep
  have hbatch := count_le_batchSize settings published
  have hsize := settings.batchSize_le
  have hweight := weight_le settings hlt
  have hconsumers : settings.geometry.consumerCount = settings.consumerCount := rfl
  rw [hplace]
  simp only [publisherRank]
  rw [weight] at hweight ⊢
  omega

/-- The main thread goes on in its publication. -/
theorem Sound.publishing_advances (h : s.Sound u) {published : ℕ}
    (hplace : s.place = .publishing published) :
  ∃ a s', s.step a = some s' ∧ s'.rank < s.rank
  := by
  obtain ⟨hpublishing, -, -, -⟩ : Standing settings u (.publishing published) :=
    hplace ▸ h.ring.standing
  obtain ⟨u', hu'⟩ := h.ring.inv.exists_callStep hpublishing.pc_ne
  rw [Disruptor.State.callStep] at hu'
  have hstream : s.stream.step settings.geometry.wrapping settings.geometry
      (.producer (.resume u.currentPlace)) = some (u'.map toWord) := by
    rw [← h.ring.stream, h.ring.inv.map_step, hu']
    rfl
  obtain ⟨q, hq, rfl⟩ := Disruptor.State.step_producer.mp hu'
  have hremaining : Disruptor.Producer.remaining settings.geometry
        (Disruptor.State.map toWord { u with producer := q }).producer.pc
      < Disruptor.Producer.remaining settings.geometry s.stream.producer.pc := by
    obtain ⟨q', hq', hsame⟩ := Disruptor.State.step_producer.mp hstream
    rw [← hsame]
    apply Disruptor.Producer.remaining_resume hq'
  rcases h.ring.publish_resume hplace hq with ⟨hpublishing', -⟩ | ⟨hidle, -, hreturned⟩
  · have hstep : s.stepPublisher u.currentPlace (fun _ => 0)
        = some { s with
            stream := Disruptor.State.map toWord { u with producer := q }
            place := .publishing published } := by
      rw [← afterPublish_publishing s hpublishing']
      simp only [Harness.stepPublisher, hplace, hstream, Option.map_some]
    apply rank_publisher hstep
    rw [hplace]
    simp only [publisherRank]
    omega
  · have hstep : s.stepPublisher u.currentPlace (fun _ => 0)
        = some { s with
            stream := Disruptor.State.map toWord { u with producer := q }
            place := nextWait settings (published + count settings published) 0 } := by
      rw [← afterPublish_published s hidle hreturned]
      simp only [Harness.stepPublisher, hplace, hstream, Option.map_some]
    apply rank_publisher hstep
    rw [hplace]
    apply Nat.lt_of_le_of_lt (rank_nextWait _ _ _)
    simp only [publisherRank]
    omega

/-- The main thread sees that a consumer has released the batch, or the consumer goes on. -/
theorem Sound.wait_advances (h : s.Sound u) (hlive : s.Live) {published : ℕ}
    (hplace : s.place = .waitReleased published index) :
  ∃ a s', s.step a = some s' ∧ s'.rank < s.rank
  := by
  obtain ⟨-, hpublished, -, hindex, -⟩ : Standing settings u (.waitReleased published index) :=
    hplace ▸ h.ring.standing
  have hstart : Signals settings s.start (.waitReleased published index) :=
    hplace ▸ hlive.signals
  by_cases hreleased : (u.released index).current = published
  · have hview := h.ring.inv.producer.cache.views_le index hindex
    have hload : (s.stream.released index).load (s.stream.producer.views index)
        (u.released index).last = some (s.stream.released index).current := by
      rw [← h.ring.stream]
      exact Location.load_last (l := (u.map toWord).released index) hview
    have hnot : ¬index ≥ settings.geometry.consumerCount := Nat.not_le.mpr hindex
    have hposition : s.stream.consumerPosition settings.geometry index (u.released index).last
        = BitVec.ofNat 64 published := by
      rw [← h.ring.stream, Disruptor.State.consumerPosition, if_neg hnot, ← hreleased]
      rfl
    have hstep : s.stepPublisher (u.released index).last (fun _ => 0)
        = some { s with
            stream := { s.stream with
              producer := s.stream.producer.observe index (u.released index).last }
            place := nextWait settings published (index + 1) } := by
      simp only [Harness.stepPublisher, hplace, hload, Option.map_some, Harness.afterPosition,
        hposition, ne_eq, not_true_eq_false, if_false]
    apply rank_publisher hstep
    rw [hplace]
    apply Nat.lt_of_le_of_lt (rank_nextWait _ _ _)
    have hconsumers : settings.geometry.consumerCount = settings.consumerCount := rfl
    simp only [publisherRank]
    omega
  · have hle := h.ring.inv.consumers.current_le index hindex
    apply h.rank_reader hlive hindex
    right
    use hstart
    omega

/-- The main thread joins a consumer, or the consumer goes on. -/
theorem Sound.join_advances (h : s.Sound u) (hlive : s.Live)
    (hplace : s.place = .joining index) :
  ∃ a s', s.step a = some s' ∧ s'.rank < s.rank
  := by
  obtain ⟨-, hpublished, -⟩ : Standing settings u (.joining index) := hplace ▸ h.ring.standing
  obtain ⟨hstart, hindex⟩ : Signals settings s.start (.joining index) := hplace ▸ hlive.signals
  by_cases hfinished : (s.reader index).place = .finished
  · have hstep : s.stepPublisher 0 (fun _ => 0)
        = some { s with place := s.nextJoin (index + 1) } := by
      simp only [Harness.stepPublisher, hplace, hfinished]
    apply rank_publisher hstep
    rw [hplace]
    dsimp only
    rw [nextJoin]
    split
    · simp only [publisherRank]
      omega
    · simp only [publisherRank]
      omega
  · have hlt := h.released_lt hlive hindex hfinished
    apply h.rank_reader hlive hindex
    right
    use hstart
    omega

/-- As long as the main thread has not joined all consumers some step decreases the rank. -/
theorem Sound.advances (h : s.Sound u) (hlive : s.Live)
    (hnot : ∀ correct, s.place ≠ .finished correct) :
  ∃ a s', s.step a = some s' ∧ s'.rank < s.rank
  := by
  cases hplace : s.place with
  | waitReady =>
      by_cases hall : ∀ index < settings.consumerCount, (s.reader index).place ≠ .ready
      · have hstep : s.stepPublisher s.ready.last (fun _ => 0)
            = some { s with readyView := s.ready.last, place := .starting } := by
          simp only [Harness.stepPublisher, hplace, Location.load_last hlive.readyView_le,
            Option.map_some, hlive.ready_eq hall, ne_eq, not_true_eq_false, if_false]
        apply rank_publisher hstep
        rw [hplace]
        simp only [publisherRank]
        omega
      · simp only [not_forall, not_not] at hall
        obtain ⟨index, hindex, hready⟩ := hall
        apply h.rank_reader hlive hindex
        left
        apply hready
  | starting =>
      have hstep : s.stepPublisher 0 (fun _ => 0)
          = some { s with start := s.start.store true, place := nextBatch 0 } := by
        simp only [Harness.stepPublisher, hplace]
      apply rank_publisher hstep
      rw [hplace]
      apply Nat.lt_of_le_of_lt (rank_nextBatch s.stream.producer.pc 0)
      simp only [publisherRank, Nat.sub_zero]
      omega
  | publish published => apply h.publish_advances hlive hplace
  | publishing published => apply h.publishing_advances hplace
  | waitReleased published index => apply h.wait_advances hlive hplace
  | joining index => apply h.join_advances hlive hplace
  | finished correct => cases hnot correct hplace

/-! ### Every run -/

theorem live_of_reachable (hs : (disruptorLatency settings).Reachable s) :
  s.Live
  := by
  apply hs.invariant (live_init settings)
  intro a s s' h hstep
  cases a with
  | publisher place now => apply h.stepPublisher hstep
  | reader index place now =>
      obtain ⟨hindex, hstep⟩ := Option.ite_none_right_eq_some.mp hstep
      apply h.stepReader hindex hstep

end Harness

/-- From every state that is reached the run can go on until the main thread has joined all
consumers, in no more steps than the rank of the state, and it is then reported as correct. -/
theorem disruptor_latency_ends {settings : Settings} {s : Harness settings}
    (hs : (disruptorLatency settings).Reachable s) :
  ∃ actions s', actions.length ≤ s.rank
    ∧ (disruptorLatency settings).run actions s = some s' ∧ s'.place = .finished true
  := by
  have hstep (s : Harness settings) (hs : (disruptorLatency settings).Reachable s)
      (hnot : ¬∃ correct, s.place = .finished correct) :
      ∃ a s', True ∧ (disruptorLatency settings).step a s = some s'
        ∧ (disruptorLatency settings).Reachable s' ∧ s'.rank < s.rank := by
    obtain ⟨u, hsound⟩ := Harness.exists_sound hs
    obtain ⟨a, s', hstep, hlt⟩ := hsound.advances (Harness.live_of_reachable hs)
      fun correct hplace => hnot ⟨correct, hplace⟩
    exact ⟨a, s', trivial, hstep, hs.step hstep, hlt⟩
  obtain ⟨actions, s', -, hlength, hrun, hs', correct, hplace⟩ :=
    TransitionSystem.exists_run_of_decreasing
      (fun s : Harness settings => ∃ correct, s.place = .finished correct) Harness.rank hstep hs
  obtain ⟨u, hsound⟩ := Harness.exists_sound hs'
  obtain ⟨-, rfl⟩ : s'.Joined (.finished correct) := hplace ▸ hsound.joined
  use actions, s'

/-- The second consumer is behind, and goes on. -/
theorem disruptor_latency_ends_firstAhead :
  ∃ s actions s', (disruptorLatency twoConsumers).run firstAhead (Harness.init twoConsumers)
      = some s
    ∧ (disruptorLatency twoConsumers).run actions s = some s' ∧ s'.place = .finished true
  := by
  obtain ⟨s, hrun⟩ : ∃ s, (disruptorLatency twoConsumers).run firstAhead
      (Harness.init twoConsumers) = some s := ⟨_, rfl⟩
  obtain ⟨actions, s', -, hrun', hplace⟩ := disruptor_latency_ends ⟨_, hrun⟩
  use s, actions, s'

end LatencyBenchmark
