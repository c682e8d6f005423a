import LowLatency.PairedBenchmark.Phases

/-!
# The handshake of the phases

The two threads are in the same phase, or the consumer has finished it and waits for the next
one. In between the counters order every write of a plain variable before the reads of it, and
keep the events of a phase behind the loop which consumes those of the phase before.
-/

namespace PairedBenchmark

variable {settings : Config}

/-! ### Places -/

/-- The number of events of the phases before `phase`. -/
def Config.firstEvent (settings : Config) : ℕ → ℕ
  | 0 => 0
  | 1 => 0
  | phase + 2 => settings.firstEvent (phase + 1) + (settings.eventCount (phase + 1)).toNat

theorem Config.firstEvent_succ (settings : Config) {phase : ℕ} (h : 1 ≤ phase) :
  settings.firstEvent (phase + 1)
    = settings.firstEvent phase + (settings.eventCount phase).toNat
  := by
  obtain ⟨phase, rfl⟩ := Nat.exists_eq_add_of_le' h
  rfl

theorem Config.eventCount_dvd (settings : Config) (phase : ℕ) :
  settings.producerBatch ∣ (settings.eventCount phase).toNat
  := by
  rw [eventCount]
  split_ifs
  · apply settings.events_dvd
  · apply settings.warmupEvents_dvd

namespace ProducerPc

/-- The phase is commanded. -/
@[simp]
def commanded : ProducerPc → Bool
  | .writeCount | .writingCount | .commanding | .finished => false
  | _ => true

/-- The event count of the phase is written. -/
@[simp]
def wrote : ProducerPc → Bool
  | .writeCount | .writingCount | .finished => false
  | _ => true

/-- The consumer was seen ready for the phase, and not yet seen to have completed it. -/
@[simp]
def sawReady : ProducerPc → Bool
  | .starting | .publishing | .waitConsumed | .waitCompleted => true
  | _ => false

/-- The consumer was seen to have completed the phase. -/
@[simp]
def sawCompleted : ProducerPc → Bool
  | .reading | .validating | .thrown => true
  | _ => false

end ProducerPc

namespace ConsumerPc

/-- The consumer is between two phases. -/
@[simp]
def idle : ConsumerPc → Bool
  | .waitCommand | .finished => true
  | _ => false

/-- The consumer has reported that it is ready for the phase. -/
@[simp]
def ready : ConsumerPc → Bool
  | .looping | .handling _ | .releasing | .writing | .completing => true
  | _ => false

/-- The consumer has read the event count of the phase. -/
@[simp]
def entered : ConsumerPc → Bool
  | .readying => true
  | pc => pc.ready

/-- The consumer has left its loop, and not yet reported that it has completed the phase. -/
@[simp]
def left : ConsumerPc → Bool
  | .writing | .completing => true
  | _ => false

/-- The events of a batch on which the handler is still to be called. -/
@[simp]
def remaining : ConsumerPc → ℕ
  | .handling remaining => remaining
  | _ => 0

end ConsumerPc

/-- The number of events of the phase that are published. -/
def Producer.done (settings : Config) (pr : Producer) : ℕ :=
  match pr.pc with
  | .publishing => pr.published.toNat
  | .waitConsumed | .waitCompleted | .reading | .validating | .thrown =>
      (settings.eventCount pr.phase).toNat
  | _ => 0

/-! ### The events published -/

/-- The ring holds the events of the phases before `phase`, and the first `done` events of
`phase`. -/
structure Stream.Holds (settings : Config) (stream : Stream) (phase done : ℕ) : Prop where
  length : stream.entries.length = settings.firstEvent phase + done
  done_le : done ≤ (settings.eventCount phase).toNat
  values : ∀ i < done,
    stream.entries[settings.firstEvent phase + i]? = some (phase, UInt64.ofNat i)
  phases : ∀ e ∈ stream.entries, e.1 ≤ phase

namespace Stream.Holds

variable {stream : Stream} {phase : ℕ}

/-- After the events of a phase come those of the next one. -/
theorem next (hpos : 1 ≤ phase)
    (h : stream.Holds settings phase (settings.eventCount phase).toNat) :
  stream.Holds settings (phase + 1) 0
  := by
  constructor
  · rw [h.length, settings.firstEvent_succ hpos, Nat.add_zero]
  · apply Nat.zero_le
  · intro i hi
    cases hi
  · intro e he
    apply Nat.le_succ_of_le (h.phases e he)

/-- A batch is published. -/
theorem publish {pr : Producer} (h : stream.Holds settings pr.phase pr.published.toNat)
    (hle : pr.published.toNat + settings.producerBatch ≤ (settings.eventCount pr.phase).toNat) :
  Stream.Holds settings { stream with entries := stream.entries ++ pr.batch settings } pr.phase
    (pr.published.toNat + settings.producerBatch)
  := by
  constructor
  · simp only [List.length_append, h.length, Producer.batch, List.length_map, List.length_range]
    omega
  · apply hle
  · intro i hi
    rcases Nat.lt_or_ge i pr.published.toNat with hlt | hge
    · rw [List.getElem?_append_left]
      · apply h.values i hlt
      · rw [h.length]
        omega
    · obtain ⟨index, rfl⟩ := Nat.exists_eq_add_of_le hge
      rw [List.getElem?_append_right]
      · have hindex : settings.firstEvent pr.phase + (pr.published.toNat + index)
            - stream.entries.length = index := by
          rw [h.length]
          omega
        rw [hindex, Producer.batch, List.getElem?_map, List.getElem?_range (by omega),
          Option.map_some, UInt64.ofNat_add, UInt64.ofNat_toNat]
      · rw [h.length]
        omega
  · intro e he
    cases List.mem_append.mp he with
    | inl hold => apply h.phases e hold
    | inr hnew =>
        obtain ⟨index, -, rfl⟩ := List.mem_map.mp hnew
        apply le_rfl

end Stream.Holds

/-! ### The invariant -/

/-- What the producer keeps: the counter of commands, the event count of its phase, and the
events published, the last of which are those of its phase. -/
structure Producer.Inv (settings : Config) (control : RunControl) (stream : Stream)
    (pr : Producer) : Prop where
  phase_pos : 1 ≤ pr.phase
  commanded : control.commandedPhase.Counts (if pr.pc.commanded then pr.phase else pr.phase - 1)
  eventCount : pr.pc.wrote = true →
    control.phaseEventCount = some (pr.phase, settings.eventCount pr.phase)
  holds : stream.Holds settings pr.phase (pr.done settings)
  publishing : pr.pc = .publishing → settings.producerBatch ∣ pr.published.toNat ∧
    pr.published < settings.eventCount pr.phase
  validating : pr.pc = .validating →
    pr.current.result.Exact (settings.eventCount pr.phase).toNat
  thrown : pr.pc = .thrown → pr.current.durationNs ≤ 0

/-- What the consumer keeps: the other two counters, an exact validation of the events of its
phase it has taken, and the measurement of the phase it has completed. -/
structure Consumer.Inv (settings : Config) (control : RunControl) (stream : Stream)
    (c : Consumer) : Prop where
  phase_pos : 1 ≤ c.phase
  ready : control.readyPhase.Counts (if c.pc.ready then c.phase else c.phase - 1)
  completed : control.completedPhase.Counts (c.phase - 1)
  entered : c.pc.entered = true → c.eventCount = settings.eventCount c.phase ∧
    c.firstSequence = UInt64.ofNat (settings.firstEvent c.phase) ∧
    settings.firstEvent c.phase ≤ c.position ∧
    c.current.result.Exact (c.position - settings.firstEvent c.phase)
  outside : c.pc.entered = false → c.position = settings.firstEvent c.phase
  position_le : c.position + c.pc.remaining ≤ stream.entries.length
  left : c.pc.left = true →
    c.position = settings.firstEvent c.phase + (settings.eventCount c.phase).toNat
  written : c.pc = .completing → control.phaseMeasurement = some (c.phase, c.current)
  kept : c.pc.left = false → c.phase = 1 ∨ ∃ m,
    control.phaseMeasurement = some (c.phase - 1, m) ∧
      m.result.Exact (settings.eventCount (c.phase - 1)).toNat

/-- The threads are in the same phase, or the consumer has finished it. -/
inductive Together (settings : Config) (pr : Producer) (c : Consumer) : Prop
  | same (phase : c.phase = pr.phase) (commanded : pr.pc.commanded = false → c.pc.idle = true)
      (ready : pr.pc.sawReady = true → c.pc.ready = true) (completed : pr.pc.sawCompleted = false)
  | ahead (phase : c.phase = pr.phase + 1) (idle : c.pc.idle = true)
      (commanded : pr.pc.commanded = true)
      (done : pr.done settings = (settings.eventCount pr.phase).toNat)

/-- A producer that has seen its phase completed is behind the consumer. -/
theorem Together.ahead_of_sawCompleted {pr : Producer} {c : Consumer}
    (h : Together settings pr c) (hsaw : pr.pc.sawCompleted = true) :
  c.phase ≠ pr.phase
  := by
  cases h with
  | same phase commanded ready completed =>
      rw [hsaw] at completed
      cases completed
  | ahead phase idle commanded done => omega

/-- The consumer is ready for the phase the producer has seen it ready for. -/
theorem Together.ready_eq {pr : Producer} {c : Consumer} (h : Together settings pr c)
    (hphase : c.phase = pr.phase) (hready : pr.pc.sawReady = true) :
  c.pc.ready = true
  := by
  cases h with
  | same phase commanded ready completed => apply ready hready
  | ahead phase idle commanded done => omega

/-- A consumer within a phase is in the phase of the producer, which has commanded it. -/
theorem Together.busy {pr : Producer} {c : Consumer} (h : Together settings pr c)
    (hbusy : c.pc.idle = false) :
  c.phase = pr.phase ∧ pr.pc.commanded = true ∧ pr.pc.sawCompleted = false
  := by
  cases h with
  | same phase commanded ready completed =>
      use phase
      constructor
      · by_contra hnot
        rw [commanded (Bool.eq_false_of_not_eq_true hnot)] at hbusy
        cases hbusy
      · apply completed
  | ahead phase idle commanded done =>
      rw [idle] at hbusy
      cases hbusy

/-- The producer moves within a phase. -/
theorem Together.move {pr pr' : Producer} {c : Consumer} (h : Together settings pr c)
    (hphase : pr'.phase = pr.phase) (hcommanded : pr'.pc.commanded = pr.pc.commanded)
    (hdone : pr'.done settings = pr.done settings)
    (hready : c.phase = pr.phase → pr'.pc.sawReady = true → c.pc.ready = true)
    (hcompleted : c.phase = pr.phase → pr'.pc.sawCompleted = false) :
  Together settings pr' c
  := by
  cases h with
  | same phase commanded ready completed =>
      apply Together.same
      · rw [hphase]
        apply phase
      · rw [hcommanded]
        apply commanded
      · apply hready phase
      · apply hcompleted phase
  | ahead phase idle commanded done =>
      apply Together.ahead
      · rw [hphase]
        apply phase
      · apply idle
      · rw [hcommanded]
        apply commanded
      · rw [hphase, hdone]
        apply done

/-- Only the phase of the consumer and where it is matter. -/
theorem Together.congr {pr : Producer} {c c' : Consumer} (h : Together settings pr c)
    (hphase : c'.phase = c.phase) (hpc : c'.pc = c.pc) :
  Together settings pr c'
  := by
  cases h with
  | same phase commanded ready completed =>
      apply Together.same
      · rw [hphase, phase]
      · rw [hpc]
        apply commanded
      · rw [hpc]
        apply ready
      · apply completed
  | ahead phase idle commanded done =>
      apply Together.ahead
      · rw [hphase, phase]
      · rw [hpc]
        apply idle
      · apply commanded
      · apply done

/-- The consumer moves within a phase. -/
theorem Together.moveConsumer {pr : Producer} {c c' : Consumer} (h : Together settings pr c)
    (hbusy : c.pc.idle = false) (hphase : c'.phase = c.phase)
    (hready : c.pc.ready = true → c'.pc.ready = true) :
  Together settings pr c'
  := by
  obtain ⟨phase, commanded, completed⟩ := h.busy hbusy
  apply Together.same
  · rw [hphase]
    apply phase
  · intro hnot
    rw [commanded] at hnot
    cases hnot
  · intro hsaw
    apply hready (h.ready_eq phase hsaw)
  · apply completed

structure State.Inv (settings : Config) (s : State) : Prop where
  producer : s.producer.Inv settings s.control s.stream
  consumer : s.consumer.Inv settings s.control s.stream
  together : Together settings s.producer s.consumer

theorem inv_initial (settings : Config) : (runAllPhases settings).initial.Inv settings := by
  constructor
  · constructor
    · apply le_rfl
    · apply Location.counts_init
    · simp [runAllPhases, ProducerPc.wrote]
    · constructor
      · rfl
      · apply Nat.zero_le
      · intro i hi
        cases hi
      · intro e he
        cases he
    · simp [runAllPhases]
    · simp [runAllPhases]
    · simp [runAllPhases]
  · constructor
    · apply le_rfl
    · apply Location.counts_init
    · apply Location.counts_init
    · simp [runAllPhases, ConsumerPc.entered, ConsumerPc.ready]
    · simp [runAllPhases, Config.firstEvent]
    · apply le_rfl
    · simp [runAllPhases, ConsumerPc.left]
    · simp [runAllPhases]
    · intro _
      left
      rfl
  · apply Together.same
    · rfl
    · intro _
      rfl
    · simp [runAllPhases, ProducerPc.sawReady]
    · rfl

/-! ### What a thread leaves alone -/

section Frame

variable {control control' : RunControl} {stream stream' : Stream}

/-- The producer's invariant depends on what it writes. -/
theorem Producer.Inv.frame {pr : Producer} (h : pr.Inv settings control stream)
    (hcommanded : control'.commandedPhase = control.commandedPhase)
    (hcount : pr.pc.wrote = true → control'.phaseEventCount = control.phaseEventCount)
    (hstream : stream'.entries = stream.entries) :
  pr.Inv settings control' stream'
  := by
  constructor
  · apply h.phase_pos
  · rw [hcommanded]
    apply h.commanded
  · intro hwrote
    rw [hcount hwrote]
    apply h.eventCount hwrote
  · constructor
    · rw [hstream]
      apply h.holds.length
    · apply h.holds.done_le
    · rw [hstream]
      apply h.holds.values
    · rw [hstream]
      apply h.holds.phases
  · apply h.publishing
  · apply h.validating
  · apply h.thrown

/-- The consumer's invariant depends on what it writes and on the events it has taken. -/
theorem Consumer.Inv.frame {c : Consumer} (h : c.Inv settings control stream)
    (hready : control'.readyPhase = control.readyPhase)
    (hcompleted : control'.completedPhase = control.completedPhase)
    (hmeasurement : control'.phaseMeasurement = control.phaseMeasurement)
    (hentries : stream.entries.length ≤ stream'.entries.length) :
  c.Inv settings control' stream'
  := by
  constructor
  · apply h.phase_pos
  · rw [hready]
    apply h.ready
  · rw [hcompleted]
    apply h.completed
  · apply h.entered
  · apply h.outside
  · apply le_trans h.position_le hentries
  · apply h.left
  · rw [hmeasurement]
    apply h.written
  · rw [hmeasurement]
    apply h.kept

/-- The producer moves within a phase, which is commanded or not as before. -/
theorem Producer.Inv.move {pr pr' : Producer} (h : pr.Inv settings control stream)
    (hphase : pr'.phase = pr.phase) (hcommanded : pr'.pc.commanded = pr.pc.commanded)
    (hwrote : pr'.pc.wrote = true →
      control.phaseEventCount = some (pr.phase, settings.eventCount pr.phase))
    (hholds : stream'.Holds settings pr.phase (pr'.done settings))
    (hpublishing : pr'.pc = .publishing → settings.producerBatch ∣ pr'.published.toNat ∧
      pr'.published < settings.eventCount pr.phase)
    (hvalidating : pr'.pc = .validating →
      pr'.current.result.Exact (settings.eventCount pr.phase).toNat)
    (hthrown : pr'.pc = .thrown → pr'.current.durationNs ≤ 0) :
  pr'.Inv settings control stream'
  := by
  constructor
  · rw [hphase]
    apply h.phase_pos
  · rw [hphase, hcommanded]
    apply h.commanded
  · rw [hphase]
    apply hwrote
  · rw [hphase]
    apply hholds
  · rw [hphase]
    apply hpublishing
  · rw [hphase]
    apply hvalidating
  · apply hthrown

/-- The consumer moves within a phase without taking an event. -/
theorem Consumer.Inv.move {c c' : Consumer} (h : c.Inv settings control stream)
    (hphase : c'.phase = c.phase) (hready : c'.pc.ready = c.pc.ready)
    (hentered : c'.pc.entered = c.pc.entered) (hposition : c'.position = c.position)
    (hlocal : c'.firstSequence = c.firstSequence ∧ c'.eventCount = c.eventCount ∧
      c'.current = c.current)
    (hremaining : c'.position + c'.pc.remaining ≤ stream.entries.length)
    (hleft : c'.pc.left = c.pc.left) (hwritten : c'.pc ≠ .completing) :
  c'.Inv settings control stream
  := by
  obtain ⟨hfirst, hcount, hcurrent⟩ := hlocal
  constructor
  · rw [hphase]
    apply h.phase_pos
  · rw [hphase, hready]
    apply h.ready
  · rw [hphase]
    apply h.completed
  · rw [hphase, hentered, hfirst, hcount, hcurrent, hposition]
    apply h.entered
  · rw [hphase, hentered, hposition]
    apply h.outside
  · apply hremaining
  · rw [hphase, hleft, hposition]
    apply h.left
  · intro hpc
    cases hwritten hpc
  · rw [hphase, hleft]
    apply h.kept

end Frame

namespace State

variable {s s' : State}

/-! ### Steps of the producer -/

/-- A producer that has written the event count moves within a phase, and what the threads share
stays. -/
theorem Inv.moveProducer {pr : Producer} (h : s.Inv settings)
    (hwrote : s.producer.pc.wrote = true) (hphase : pr.phase = s.producer.phase)
    (hcommanded : pr.pc.commanded = s.producer.pc.commanded)
    (hdone : pr.done settings = s.producer.done settings)
    (hpublishing : pr.pc ≠ .publishing)
    (hvalidating : pr.pc = .validating →
      pr.current.result.Exact (settings.eventCount s.producer.phase).toNat)
    (hthrown : pr.pc = .thrown → pr.current.durationNs ≤ 0)
    (hready : s.consumer.phase = s.producer.phase → pr.pc.sawReady = true →
      s.consumer.pc.ready = true)
    (hcompleted : s.consumer.phase = s.producer.phase → pr.pc.sawCompleted = false) :
  ({ s with producer := pr } : State).Inv settings
  := by
  constructor
  · apply h.producer.move hphase hcommanded
    · intro _
      apply h.producer.eventCount hwrote
    · rw [hdone]
      apply h.producer.holds
    · intro hpc
      cases hpublishing hpc
    · apply hvalidating
    · apply hthrown
  · apply h.consumer
  · apply h.together.move hphase hcommanded hdone hready hcompleted

theorem Inv.beginCount (h : s.Inv settings) (hs : s.beginCount = some s') : s'.Inv settings := by
  cases hpc : s.producer.pc with
  | writeCount =>
      simp only [State.beginCount, hpc, Option.some.injEq] at hs
      subst hs
      have hholds := h.producer.holds
      simp only [Producer.done, hpc] at hholds
      have hmoved : ({ s.producer with pc := .writingCount } : Producer).Inv settings
          s.control s.stream := by
        apply h.producer.move <;> simp [hpc, Producer.done, hholds]
      constructor
      · apply hmoved.frame
        · rfl
        · intro hwrote
          cases hwrote
        · rfl
      · apply h.consumer.frame <;> rfl
      · apply h.together.move <;> simp [hpc, Producer.done]
  | _ => simp [State.beginCount, hpc] at hs

theorem Inv.endCount (h : s.Inv settings) (hs : s.endCount settings = some s') :
  s'.Inv settings
  := by
  cases hpc : s.producer.pc with
  | writingCount =>
      simp only [State.endCount, hpc, Option.some.injEq] at hs
      subst hs
      have hholds := h.producer.holds
      simp only [Producer.done, hpc] at hholds
      have hframe : s.producer.Inv settings { s.control with
          phaseEventCount := some (s.producer.phase, settings.eventCount s.producer.phase) }
          s.stream := by
        apply h.producer.frame
        · rfl
        · simp [hpc]
        · rfl
      constructor
      · apply hframe.move <;> simp [hpc, Producer.done, hholds]
      · apply h.consumer.frame <;> rfl
      · apply h.together.move <;> simp [hpc, Producer.done]
  | _ => simp [State.endCount, hpc] at hs

theorem Inv.command (h : s.Inv settings) (hs : s.command = some s') : s'.Inv settings := by
  cases hpc : s.producer.pc with
  | commanding =>
      simp only [State.command, hpc, Option.some.injEq] at hs
      subst hs
      have hproducer := h.producer
      constructor
      · constructor
        · apply hproducer.phase_pos
        · have hcommanded := hproducer.commanded.store
          rw [hpc] at hcommanded
          simp only [ProducerPc.commanded, Bool.false_eq_true, if_false,
            Nat.sub_add_cancel hproducer.phase_pos] at hcommanded
          apply hcommanded
        · intro _
          apply hproducer.eventCount
          rw [hpc]
          rfl
        · have hholds := hproducer.holds
          simp only [Producer.done, hpc] at hholds
          apply hholds
        · simp
        · simp
        · simp
      · apply h.consumer.frame <;> rfl
      · cases h.together with
        | same phase commanded ready completed =>
            apply Together.same
            · apply phase
            · simp
            · simp
            · rfl
        | ahead phase idle commanded done =>
            rw [hpc] at commanded
            cases commanded
  | _ => simp [State.command, hpc] at hs

/-- The counter of ready phases has reached the phase of the producer only when the consumer is
ready for it, or ahead. -/
theorem Inv.loadReady (h : s.Inv settings) {place : ℕ} (hs : s.loadReady place = some s') :
  s'.Inv settings
  := by
  cases hpc : s.producer.pc with
  | waitReady =>
      simp only [State.loadReady, hpc, Option.map_eq_some_iff] at hs
      obtain ⟨phase, hload, rfl⟩ := hs
      have hle := h.consumer.ready.load_le hload
      have hpos := h.producer.phase_pos
      by_cases hphase : phase = s.producer.phase
      · have hready : s.consumer.phase = s.producer.phase → s.consumer.pc.ready = true := by
          intro hsame
          by_contra hnot
          rw [if_neg hnot] at hle
          omega
        rw [if_pos hphase]
        apply h.moveProducer <;> simp [hpc, Producer.done]
        apply hready
      · rw [if_neg hphase]
        apply h.moveProducer <;> simp [hpc, Producer.done]
  | _ => simp [State.loadReady, hpc] at hs

/-- The head of the loop over the batches, once `published` events of the phase are there. -/
theorem Inv.publishHead {pr : Producer} {stream : Stream} (h : s.Inv settings)
    (hpc : s.producer.pc.sawReady = true ∧ s.producer.pc.commanded = true ∧
      s.producer.pc.wrote = true)
    (hphase : pr.phase = s.producer.phase)
    (hholds : stream.Holds settings pr.phase pr.published.toNat)
    (hdvd : settings.producerBatch ∣ pr.published.toNat)
    (hlength : s.stream.entries.length ≤ stream.entries.length)
    (hsame : s.consumer.phase = s.producer.phase + 1 →
      pr.published.toNat = (settings.eventCount pr.phase).toNat) :
  ({ s with stream := stream, producer := pr.publishHead settings } : State).Inv settings
  := by
  obtain ⟨hready, hcommanded, hwrote⟩ := hpc
  have hcount := h.producer.eventCount hwrote
  have hle := hholds.done_le
  have hdone : (pr.publishHead settings).done settings = pr.published.toNat := by
    rw [Producer.publishHead]
    split_ifs with hlt
    · rfl
    · rw [UInt64.lt_iff_toNat_lt] at hlt
      simp only [Producer.done]
      omega
  have hflags : (pr.publishHead settings).pc.sawReady = true ∧
      (pr.publishHead settings).pc.commanded = true ∧
      (pr.publishHead settings).pc.sawCompleted = false := by
    rw [Producer.publishHead]
    split_ifs <;> simp
  obtain ⟨hready', hcommanded', hcompleted'⟩ := hflags
  constructor
  · apply h.producer.move
    · apply hphase
    · rw [hcommanded, hcommanded']
    · intro _
      apply hcount
    · rw [hdone, ← hphase]
      apply hholds
    · rw [Producer.publishHead]
      split_ifs with hlt
      · intro _
        rw [← hphase]
        use hdvd
      · simp
    · rw [Producer.publishHead]
      split_ifs <;> simp
    · rw [Producer.publishHead]
      split_ifs <;> simp
  · apply h.consumer.frame
    · rfl
    · rfl
    · rfl
    · apply hlength
  · cases h.together with
    | same phase commanded ready completed =>
        apply Together.same
        · rw [phase, Producer.publishHead, hphase]
        · rw [hcommanded']
          simp
        · intro _
          apply ready hready
        · apply hcompleted'
    | ahead phase idle commanded done =>
        apply Together.ahead
        · rw [phase, Producer.publishHead, hphase]
        · apply idle
        · apply hcommanded'
        · rw [hdone, hsame phase]
          rfl

theorem Inv.start (h : s.Inv settings) {now : ℤ} (hs : s.start settings now = some s') :
  s'.Inv settings
  := by
  cases hpc : s.producer.pc with
  | starting =>
      simp only [State.start, hpc, Option.some.injEq] at hs
      subst hs
      have hholds := h.producer.holds
      simp only [Producer.done, hpc] at hholds
      apply h.publishHead
      · simp [hpc]
      · rfl
      · apply hholds
      · apply Nat.dvd_zero
      · apply le_rfl
      · intro hahead
        cases h.together with
        | same phase commanded ready completed => omega
        | ahead phase idle commanded done =>
            simp only [Producer.done, hpc] at done
            apply done
  | _ => simp [State.start, hpc] at hs

/-- Batches divide the event count, so a batch never exceeds it. -/
theorem Inv.tryPublishBatch (h : s.Inv settings) {published : Bool}
    (hs : s.tryPublishBatch settings published = some s') :
  s'.Inv settings
  := by
  cases hpc : s.producer.pc with
  | publishing =>
      cases published with
      | false =>
          simp only [State.tryPublishBatch, hpc, Option.some.injEq] at hs
          subst hs
          apply h
      | true =>
          simp only [State.tryPublishBatch, hpc, Option.some.injEq] at hs
          subst hs
          obtain ⟨hdvd, hlt⟩ := h.producer.publishing hpc
          rw [UInt64.lt_iff_toNat_lt] at hlt
          have hholds := h.producer.holds
          simp only [Producer.done, hpc] at hholds
          have hle : s.producer.published.toNat + settings.producerBatch
              ≤ (settings.eventCount s.producer.phase).toNat := by
            apply Nat.le_of_lt_add_of_dvd (n := settings.producerBatch)
            · omega
            · apply Nat.dvd_add hdvd (Nat.dvd_refl _)
            · apply settings.eventCount_dvd
          have htoNat : (s.producer.published + UInt64.ofNat settings.producerBatch).toNat
              = s.producer.published.toNat + settings.producerBatch := by
            have hcount := (settings.eventCount s.producer.phase).toNat_lt
            rw [UInt64.toNat_add, UInt64.toNat_ofNat', Nat.add_mod_mod]
            apply Nat.mod_eq_of_lt
            omega
          apply h.publishHead
          · simp [hpc]
          · rfl
          · simp only [htoNat]
            apply hholds.publish hle
          · simp only [htoNat]
            apply Nat.dvd_add hdvd (Nat.dvd_refl _)
          · simp
          · intro hahead
            cases h.together with
            | same phase commanded ready completed => omega
            | ahead phase idle commanded done =>
                simp only [Producer.done, hpc] at done
                omega
  | _ => simp [State.tryPublishBatch, hpc] at hs

theorem Inv.loadConsumed (h : s.Inv settings) {place : ℕ} {now : ℤ}
    (hs : s.loadConsumed place now = some s') :
  s'.Inv settings
  := by
  cases hpc : s.producer.pc with
  | waitConsumed =>
      simp only [State.loadConsumed, hpc, Option.map_eq_some_iff] at hs
      obtain ⟨position, -, rfl⟩ := hs
      have hready := fun hsame => h.together.ready_eq hsame (by rw [hpc]; rfl)
      split_ifs
      · apply h.moveProducer <;> simp [hpc, Producer.done]
        apply hready
      · apply h.moveProducer <;> simp [hpc, Producer.done]
        apply hready
  | _ => simp [State.loadConsumed, hpc] at hs

/-- The counter of completed phases has reached the phase of the producer only when the
consumer is ahead. -/
theorem Inv.loadCompleted (h : s.Inv settings) {place : ℕ}
    (hs : s.loadCompleted place = some s') :
  s'.Inv settings
  := by
  cases hpc : s.producer.pc with
  | waitCompleted =>
      simp only [State.loadCompleted, hpc, Option.map_eq_some_iff] at hs
      obtain ⟨phase, hload, rfl⟩ := hs
      have hle := h.consumer.completed.load_le hload
      have hpos := h.consumer.phase_pos
      have hready := fun hsame => h.together.ready_eq hsame (by rw [hpc]; rfl)
      split_ifs with hphase
      · have hahead : s.consumer.phase ≠ s.producer.phase := by omega
        apply h.moveProducer <;> simp [hpc, Producer.done, hahead]
      · apply h.moveProducer <;> simp [hpc, Producer.done]
        apply hready
  | _ => simp [State.loadCompleted, hpc] at hs

/-- The consumer has completed the phase that the producer has seen completed, and has kept the
measurement of it. -/
theorem Inv.phaseMeasurement (h : s.Inv settings) (hpc : s.producer.pc.sawCompleted = true) :
  ∃ m, s.control.phaseMeasurement = some (s.producer.phase, m) ∧
    m.result.Exact (settings.eventCount s.producer.phase).toNat
  := by
  cases h.together with
  | same phase commanded ready completed =>
      rw [hpc] at completed
      cases completed
  | ahead phase idle commanded done =>
      have hleft : s.consumer.pc.left = false := by
        cases hconsumer : s.consumer.pc <;> simp [hconsumer] at idle ⊢
      have hpos := h.producer.phase_pos
      rcases h.consumer.kept hleft with hone | hkept
      · omega
      · rw [phase, Nat.add_sub_cancel] at hkept
        apply hkept

theorem Inv.readMeasurement (h : s.Inv settings) (hs : s.readMeasurement = some s') :
  s'.Inv settings
  := by
  cases hpc : s.producer.pc with
  | reading =>
      obtain ⟨m, hm, hexact⟩ := h.phaseMeasurement (by rw [hpc]; rfl)
      simp only [State.readMeasurement, hpc, hm, Option.map_some, Option.some.injEq] at hs
      subst hs
      have hahead := h.together.ahead_of_sawCompleted (by rw [hpc]; rfl)
      apply h.moveProducer <;> simp [hpc, Producer.done, hexact, hahead]
  | _ => simp [State.readMeasurement, hpc] at hs

/-- An exact validation fails the checks of the producer by its duration only. -/
theorem valid_iff {pr : Producer}
    (h : pr.current.result.Exact (settings.eventCount pr.phase).toNat) :
  pr.Valid settings ↔ 0 < pr.current.durationNs
  := by
  rw [Producer.Valid, h.consumed, h.checksum, h.orderValueMismatch, expectedChecksum_eq,
    UInt64.ofNat_toNat]
  simp

/-- The producer enters a phase without having commanded it. -/
theorem enter_pc (settings : Config) (pr : Producer) (phase : ℕ) :
  (pr.enter settings phase).pc = .writeCount ∨ (pr.enter settings phase).pc = .finished
  := by
  rw [Producer.enter]
  split_ifs <;> simp

/-- The producer enters the next phase once the consumer is waiting for it. -/
theorem Inv.enter {pr : Producer} (h : s.Inv settings) (hpc : s.producer.pc = .validating) :
  ({ s with producer := pr.enter settings (s.producer.phase + 1) } : State).Inv settings
  := by
  have hpos := h.producer.phase_pos
  have hholds := h.producer.holds
  simp only [Producer.done, hpc] at hholds
  have hcommanded := h.producer.commanded
  rw [hpc] at hcommanded
  have hphase : (pr.enter settings (s.producer.phase + 1)).phase = s.producer.phase + 1 := rfl
  constructor
  · constructor
    · rw [hphase]
      omega
    · rcases enter_pc settings pr (s.producer.phase + 1) with heq | heq
      · rw [heq, hphase]
        apply hcommanded
      · rw [heq, hphase]
        apply hcommanded
    · rcases enter_pc settings pr (s.producer.phase + 1) with heq | heq <;> simp [heq]
    · have hdone : (pr.enter settings (s.producer.phase + 1)).done settings = 0 := by
        rcases enter_pc settings pr (s.producer.phase + 1) with heq | heq <;>
          simp [Producer.done, heq]
      rw [hdone, hphase]
      apply hholds.next hpos
    · rcases enter_pc settings pr (s.producer.phase + 1) with heq | heq <;> simp [heq]
    · rcases enter_pc settings pr (s.producer.phase + 1) with heq | heq <;> simp [heq]
    · rcases enter_pc settings pr (s.producer.phase + 1) with heq | heq <;> simp [heq]
  · apply h.consumer
  · cases h.together with
    | same phase commanded ready completed =>
        rw [hpc] at completed
        cases completed
    | ahead phase idle commanded done =>
        apply Together.same
        · rw [phase, hphase]
        · intro _
          apply idle
        · rcases enter_pc settings pr (s.producer.phase + 1) with heq | heq <;> simp [heq]
        · rcases enter_pc settings pr (s.producer.phase + 1) with heq | heq <;> simp [heq]

theorem Inv.validate (h : s.Inv settings) (hs : s.validate settings = some s') :
  s'.Inv settings
  := by
  cases hpc : s.producer.pc with
  | validating =>
      have hexact := h.producer.validating hpc
      simp only [State.validate, hpc] at hs
      by_cases hvalid : s.producer.Valid settings
      · rw [if_pos hvalid, Option.some.injEq] at hs
        subst hs
        apply h.enter hpc
      · rw [if_neg hvalid, Option.some.injEq] at hs
        subst hs
        rw [valid_iff hexact] at hvalid
        have hahead := h.together.ahead_of_sawCompleted (by rw [hpc]; rfl)
        apply h.moveProducer <;> simp [hpc, Producer.done, hahead]
        omega
  | _ => simp [State.validate, hpc] at hs

/-! ### Steps of the consumer -/

/-- The consumer moves within a phase, and what the threads share stays. -/
theorem Inv.ofConsumer (h : s.Inv settings) (hcontrol : s'.control = s.control)
    (hentries : s'.stream.entries = s.stream.entries) (hproducer : s'.producer = s.producer)
    (hconsumer : s'.consumer.Inv settings s.control s.stream)
    (htogether : Together settings s.producer s'.consumer) :
  s'.Inv settings
  := by
  constructor
  · rw [hcontrol, hproducer]
    apply h.producer.frame
    · rfl
    · intro _
      rfl
    · apply hentries
  · rw [hcontrol]
    apply hconsumer.frame
    · rfl
    · rfl
    · rfl
    · rw [hentries]
  · rw [hproducer]
    apply htogether

/-- The counter of commands has reached the phase of the consumer only when the producer has
commanded it. -/
theorem Inv.loadCommanded (h : s.Inv settings) {place : ℕ}
    (hs : s.loadCommanded place = some s') :
  s'.Inv settings
  := by
  cases hpc : s.consumer.pc with
  | waitCommand =>
      simp only [State.loadCommanded, hpc, Option.map_eq_some_iff] at hs
      obtain ⟨phase, hload, rfl⟩ := hs
      have hle := h.producer.commanded.load_le hload
      have hpos := h.consumer.phase_pos
      have hposition := h.consumer.position_le
      rw [hpc] at hposition
      by_cases hphase : phase = s.consumer.phase
      · rw [if_pos hphase]
        apply h.ofConsumer
        · rfl
        · rfl
        · rfl
        · apply h.consumer.move <;> simp [hpc]
          apply hposition
        · cases h.together with
          | same same commanded ready completed =>
              apply Together.same
              · apply same
              · intro hnot
                rw [hnot, if_neg Bool.false_ne_true] at hle
                omega
              · intro hsaw
                have hready := ready hsaw
                rw [hpc] at hready
                cases hready
              · apply completed
          | ahead ahead idle commanded done =>
              rw [if_pos commanded] at hle
              omega
      · rw [if_neg hphase]
        apply h.ofConsumer
        · rfl
        · rfl
        · rfl
        · apply h.consumer.move <;> simp [hpc]
          apply hposition
        · apply h.together.congr
          · rfl
          · rw [hpc]
  | _ => simp [State.loadCommanded, hpc] at hs

/-- While the consumer is within a phase, the event count is that of the phase. -/
theorem Inv.phaseEventCount (h : s.Inv settings) (hbusy : s.consumer.pc.idle = false) :
  s.control.phaseEventCount = some (s.consumer.phase, settings.eventCount s.consumer.phase)
  := by
  obtain ⟨hphase, hcommanded, -⟩ := h.together.busy hbusy
  rw [hphase]
  apply h.producer.eventCount
  cases hpc : s.producer.pc <;> simp [hpc] at hcommanded ⊢

theorem Inv.readCount (h : s.Inv settings) (hs : s.readCount settings = some s') :
  s'.Inv settings
  := by
  cases hpc : s.consumer.pc with
  | reading =>
      have hcount := h.phaseEventCount (by rw [hpc]; rfl)
      simp only [State.readCount, hpc, hcount, Option.map_some, Option.some.injEq] at hs
      subst hs
      have hconsumer := h.consumer
      have hposition := hconsumer.outside (by rw [hpc]; rfl)
      apply h.ofConsumer
      · rfl
      · rfl
      · rfl
      · constructor
        · apply hconsumer.phase_pos
        · have hready := hconsumer.ready
          rw [hpc] at hready
          apply hready
        · apply hconsumer.completed
        · intro _
          refine ⟨rfl, ?_, ?_, ?_⟩
          · simp only [hposition]
          · simp only [hposition, le_refl]
          · simp only [hposition, Nat.sub_self]
            apply Validation.exact_initial
        · simp
        · have hle := hconsumer.position_le
          rw [hpc] at hle
          apply hle
        · simp
        · simp
        · intro _
          apply hconsumer.kept
          rw [hpc]
          rfl
      · apply h.together.moveConsumer
        · rw [hpc]
          rfl
        · rfl
        · simp [hpc]
  | _ => simp [State.readCount, hpc] at hs

theorem Inv.storeReady (h : s.Inv settings) (hs : s.storeReady = some s') : s'.Inv settings := by
  cases hpc : s.consumer.pc with
  | readying =>
      simp only [State.storeReady, hpc, Option.some.injEq] at hs
      subst hs
      have hconsumer := h.consumer
      constructor
      · apply h.producer.frame
        · rfl
        · intro _
          rfl
        · rfl
      · constructor
        · apply hconsumer.phase_pos
        · have hready := hconsumer.ready.store
          rw [hpc] at hready
          simp only [ConsumerPc.ready, Bool.false_eq_true, if_false,
            Nat.sub_add_cancel hconsumer.phase_pos] at hready
          apply hready
        · apply hconsumer.completed
        · intro _
          apply hconsumer.entered
          rw [hpc]
          rfl
        · simp
        · have hle := hconsumer.position_le
          rw [hpc] at hle
          apply hle
        · simp
        · simp
        · intro _
          apply hconsumer.kept
          rw [hpc]
          rfl
      · apply h.together.moveConsumer
        · rw [hpc]
          rfl
        · rfl
        · simp
  | _ => simp [State.storeReady, hpc] at hs

theorem Inv.consumeAvailable (h : s.Inv settings) {count : ℕ}
    (hs : s.consumeAvailable settings count = some s') :
  s'.Inv settings
  := by
  cases hpc : s.consumer.pc with
  | looping =>
      simp only [State.consumeAvailable, hpc, Option.ite_none_right_eq_some,
        Option.some.injEq] at hs
      obtain ⟨⟨-, -, hle⟩, rfl⟩ := hs
      by_cases hzero : count = 0
      · rw [if_pos hzero]
        apply h.ofConsumer
        · rfl
        · rfl
        · rfl
        · apply h.consumer.move <;> simp [hpc]
          omega
        · apply h.together.congr
          · rfl
          · rw [hpc]
      · rw [if_neg hzero]
        apply h.ofConsumer
        · rfl
        · rfl
        · rfl
        · apply h.consumer.move <;> simp [hpc]
          apply hle
        · apply h.together.moveConsumer
          · rw [hpc]
            rfl
          · rfl
          · simp
  | _ => simp [State.consumeAvailable, hpc] at hs

/-- The next event that a busy consumer takes is the next one of its phase. -/
theorem Inv.next_entry (h : s.Inv settings) (hbusy : s.consumer.pc.idle = false)
    (hfirst : settings.firstEvent s.consumer.phase ≤ s.consumer.position)
    (hlt : s.consumer.position < s.stream.entries.length) :
  s.stream.entries[s.consumer.position]? = some (s.consumer.phase,
    UInt64.ofNat (s.consumer.position - settings.firstEvent s.consumer.phase))
  := by
  obtain ⟨hphase, -, -⟩ := h.together.busy hbusy
  have hholds := h.producer.holds
  rw [hholds.length, ← hphase] at hlt
  have hvalue := hholds.values (s.consumer.position - settings.firstEvent s.consumer.phase)
    (by omega)
  rw [← hphase, Nat.add_sub_cancel' hfirst] at hvalue
  apply hvalue

theorem Inv.handle (h : s.Inv settings) (hs : s.handle = some s') : s'.Inv settings := by
  cases hpc : s.consumer.pc with
  | handling remaining =>
      cases remaining with
      | zero => simp [State.handle, hpc] at hs
      | succ remaining =>
          have hconsumer := h.consumer
          obtain ⟨hcount, hfirstSequence, hfirst, hexact⟩ :=
            hconsumer.entered (by rw [hpc]; rfl)
          have hle := hconsumer.position_le
          rw [hpc] at hle
          simp only [ConsumerPc.remaining] at hle
          have hentry := h.next_entry (by rw [hpc]; rfl) hfirst (by omega)
          simp only [State.handle, hpc, hentry, Option.map_some, Option.some.injEq] at hs
          subst hs
          have hsequence : UInt64.ofNat s.consumer.position = s.consumer.firstSequence
              + UInt64.ofNat (s.consumer.position - settings.firstEvent s.consumer.phase) := by
            rw [hfirstSequence, ← UInt64.ofNat_add, Nat.add_sub_cancel' hfirst]
          have hexact' : ((s.consumer.current.result.handle s.consumer.firstSequence
              (UInt64.ofNat (s.consumer.position - settings.firstEvent s.consumer.phase))
              (UInt64.ofNat s.consumer.position))).Exact
                (s.consumer.position + 1 - settings.firstEvent s.consumer.phase) := by
            rw [hsequence, Nat.sub_add_comm hfirst]
            apply hexact.handle
          have hkept := hconsumer.kept (by rw [hpc]; rfl)
          have hready := hconsumer.ready
          rw [hpc] at hready
          apply h.ofConsumer
          · rfl
          · rfl
          · rfl
          · constructor
            · apply hconsumer.phase_pos
            · by_cases hzero : remaining = 0
              · simp only [if_pos hzero]
                apply hready
              · simp only [if_neg hzero]
                apply hready
            · apply hconsumer.completed
            · intro _
              refine ⟨hcount, hfirstSequence, ?_, hexact'⟩
              simp only
              omega
            · split_ifs <;> simp
            · split_ifs with hzero
              · simp only [ConsumerPc.remaining]
                omega
              · simp only [ConsumerPc.remaining]
                omega
            · split_ifs <;> simp
            · split_ifs <;> simp
            · intro _
              apply hkept
          · apply h.together.moveConsumer
            · rw [hpc]
              rfl
            · rfl
            · split_ifs <;> simp
  | _ => simp [State.handle, hpc] at hs

theorem Inv.release (h : s.Inv settings) (hs : s.release = some s') : s'.Inv settings := by
  cases hpc : s.consumer.pc with
  | releasing =>
      simp only [State.release, hpc, Option.some.injEq] at hs
      subst hs
      have hle := h.consumer.position_le
      rw [hpc] at hle
      apply h.ofConsumer
      · rfl
      · rfl
      · rfl
      · apply h.consumer.move <;> simp [hpc]
        apply hle
      · apply h.together.moveConsumer
        · rw [hpc]
          rfl
        · rfl
        · simp
  | _ => simp [State.release, hpc] at hs

/-- A busy consumer has not taken more events than its phase has. -/
theorem Inv.position_le (h : s.Inv settings) (hbusy : s.consumer.pc.idle = false) :
  s.consumer.position
    ≤ settings.firstEvent s.consumer.phase + (settings.eventCount s.consumer.phase).toNat
  := by
  obtain ⟨hphase, -, -⟩ := h.together.busy hbusy
  have hposition := h.consumer.position_le
  have hlength := h.producer.holds.length
  have hdone := h.producer.holds.done_le
  rw [hphase]
  omega

/-- A busy consumer has consumed the events of its phase that it has taken. -/
theorem Inv.toNat_consumed (h : s.Inv settings) (hbusy : s.consumer.pc.idle = false)
    (hentered : s.consumer.pc.entered = true) :
  s.consumer.current.result.consumed.toNat
    = s.consumer.position - settings.firstEvent s.consumer.phase
  := by
  obtain ⟨-, -, -, hexact⟩ := h.consumer.entered hentered
  have hle := h.position_le hbusy
  have hlt := (settings.eventCount s.consumer.phase).toNat_lt
  rw [hexact.consumed, UInt64.toNat_ofNat']
  apply Nat.mod_eq_of_lt
  omega

/-- The consumer leaves its loop with exactly the events of the phase. -/
theorem Inv.beginMeasurement (h : s.Inv settings) (hs : s.beginMeasurement = some s') :
  s'.Inv settings
  := by
  cases hpc : s.consumer.pc with
  | looping =>
      simp only [State.beginMeasurement, hpc, Option.ite_none_left_eq_some,
        Option.some.injEq] at hs
      obtain ⟨hdone, rfl⟩ := hs
      have hconsumer := h.consumer
      obtain ⟨hcount, hfirstSequence, hfirst, hexact⟩ := hconsumer.entered (by rw [hpc]; rfl)
      have hle := h.position_le (by rw [hpc]; rfl)
      have hposition : s.consumer.position = settings.firstEvent s.consumer.phase
          + (settings.eventCount s.consumer.phase).toNat := by
        have htoNat := h.toNat_consumed (by rw [hpc]; rfl) (by rw [hpc]; rfl)
        rw [UInt64.not_lt, hcount, UInt64.le_iff_toNat_le, htoNat] at hdone
        omega
      have hwithin := hconsumer.position_le
      rw [hpc] at hwithin
      have hready := hconsumer.ready
      rw [hpc] at hready
      constructor
      · apply h.producer.frame
        · rfl
        · intro _
          rfl
        · rfl
      · constructor
        · apply hconsumer.phase_pos
        · apply hready
        · apply hconsumer.completed
        · intro _
          use hcount, hfirstSequence, hfirst
        · simp
        · apply hwithin
        · intro _
          apply hposition
        · simp
        · simp
      · apply h.together.moveConsumer
        · rw [hpc]
          rfl
        · rfl
        · simp
  | _ => simp [State.beginMeasurement, hpc] at hs

theorem Inv.endMeasurement (h : s.Inv settings) (hs : s.endMeasurement = some s') :
  s'.Inv settings
  := by
  cases hpc : s.consumer.pc with
  | writing =>
      simp only [State.endMeasurement, hpc, Option.some.injEq] at hs
      subst hs
      have hconsumer := h.consumer
      have hentered := hconsumer.entered (by rw [hpc]; rfl)
      have hleft := hconsumer.left (by rw [hpc]; rfl)
      have hwithin := hconsumer.position_le
      rw [hpc] at hwithin
      have hready := hconsumer.ready
      rw [hpc] at hready
      constructor
      · apply h.producer.frame
        · rfl
        · intro _
          rfl
        · rfl
      · constructor
        · apply hconsumer.phase_pos
        · apply hready
        · apply hconsumer.completed
        · intro _
          apply hentered
        · simp
        · apply hwithin
        · intro _
          apply hleft
        · intro _
          rfl
        · simp
      · apply h.together.moveConsumer
        · rw [hpc]
          rfl
        · rfl
        · simp
  | _ => simp [State.endMeasurement, hpc] at hs

/-- The consumer enters a phase before it is commanded. -/
theorem enterConsumer_pc (settings : Config) (c : Consumer) (phase : ℕ) :
  (c.enter settings phase).pc = .waitCommand ∨ (c.enter settings phase).pc = .finished
  := by
  rw [Consumer.enter]
  split_ifs <;> simp

theorem Inv.complete (h : s.Inv settings) (hs : s.complete settings = some s') :
  s'.Inv settings
  := by
  cases hpc : s.consumer.pc with
  | completing =>
      simp only [State.complete, hpc, Option.some.injEq] at hs
      subst hs
      have hconsumer := h.consumer
      have hpos := hconsumer.phase_pos
      have hleft := hconsumer.left (by rw [hpc]; rfl)
      have hwritten := hconsumer.written hpc
      obtain ⟨-, -, -, hexact⟩ := hconsumer.entered (by rw [hpc]; rfl)
      rw [hleft, Nat.add_sub_cancel_left] at hexact
      have hready := hconsumer.ready
      rw [hpc] at hready
      have hcompleted := hconsumer.completed.store
      rw [Nat.sub_add_cancel hpos] at hcompleted
      obtain ⟨hphase, hcommanded, hsaw⟩ := h.together.busy (by rw [hpc]; rfl)
      have hwithin := hconsumer.position_le
      have henter := enterConsumer_pc settings s.consumer (s.consumer.phase + 1)
      have hentered : (s.consumer.enter settings (s.consumer.phase + 1)).phase
          = s.consumer.phase + 1 := rfl
      constructor
      · apply h.producer.frame
        · rfl
        · intro _
          rfl
        · rfl
      · constructor
        · rw [hentered]
          omega
        · rcases henter with heq | heq
          · rw [heq, hentered]
            apply hready
          · rw [heq, hentered]
            apply hready
        · rw [hentered]
          apply hcompleted
        · rcases henter with heq | heq <;> simp [heq]
        · intro _
          rw [hentered, settings.firstEvent_succ hpos]
          apply hleft
        · rcases henter with heq | heq
          · rw [heq]
            apply le_trans (Nat.le_add_right _ _) hwithin
          · rw [heq]
            apply le_trans (Nat.le_add_right _ _) hwithin
        · rcases henter with heq | heq <;> simp [heq]
        · rcases henter with heq | heq <;> simp [heq]
        · intro _
          right
          use s.consumer.current
          rw [hentered]
          use hwritten
          apply hexact
      · apply Together.ahead
        · rw [hentered, hphase]
        · rcases henter with heq | heq <;> simp [heq]
        · apply hcommanded
        · have hlength := h.producer.holds.length
          have hdone := h.producer.holds.done_le
          rw [hphase] at hleft
          have hall : s.producer.done settings
              = (settings.eventCount s.producer.phase).toNat := by
            omega
          apply hall
  | _ => simp [State.complete, hpc] at hs

/-! ### Every run -/

theorem Inv.step {action : Action} (h : s.Inv settings) (hs : s.step settings action = some s') :
  s'.Inv settings
  := by
  cases action with
  | beginCount => apply h.beginCount hs
  | endCount => apply h.endCount hs
  | command => apply h.command hs
  | loadReady place => apply h.loadReady hs
  | start now => apply h.start hs
  | tryPublishBatch published => apply h.tryPublishBatch hs
  | loadConsumed place now => apply h.loadConsumed hs
  | loadCompleted place => apply h.loadCompleted hs
  | readMeasurement => apply h.readMeasurement hs
  | validate => apply h.validate hs
  | loadCommanded place => apply h.loadCommanded hs
  | readCount => apply h.readCount hs
  | storeReady => apply h.storeReady hs
  | consumeAvailable count => apply h.consumeAvailable hs
  | handle => apply h.handle hs
  | release => apply h.release hs
  | beginMeasurement => apply h.beginMeasurement hs
  | endMeasurement => apply h.endMeasurement hs
  | complete => apply h.complete hs

theorem inv_of_reachable (h : (runAllPhases settings).Reachable s) : s.Inv settings :=
  h.invariant (inv_initial settings) fun _ _ _ hinv hs => hinv.step hs

/-- In every run: the consumer reads the event count of its phase; no event of a phase is
published before the consumer has entered it, so it takes at most the events of its phase, and
leaves its loop with all of them; the producer reads the measurement of its phase; and its
checks fail at most by the duration. -/
theorem handshake_safe (settings : Config) {s : State} (h : (runAllPhases settings).Reachable s) :
  (s.consumer.pc = .reading → s.control.phaseEventCount
    = some (s.consumer.phase, settings.eventCount s.consumer.phase)) ∧
  (∀ e ∈ s.stream.entries, e.1 ≤ s.consumer.phase) ∧
  (s.consumer.pc.ready = true →
    s.consumer.current.result.consumed ≤ settings.eventCount s.consumer.phase) ∧
  (s.consumer.pc.left = true →
    s.consumer.current.result.consumed = settings.eventCount s.consumer.phase) ∧
  (s.producer.pc = .reading → ∃ m, s.control.phaseMeasurement = some (s.producer.phase, m) ∧
    m.result.consumed = settings.eventCount s.producer.phase) ∧
  (s.producer.pc = .validating →
    s.producer.current.result.consumed = settings.eventCount s.producer.phase ∧
    s.producer.current.result.checksum
      = expectedChecksum (settings.eventCount s.producer.phase) ∧
    s.producer.current.result.orderValueMismatch = 0) ∧
  (s.producer.pc = .thrown → s.producer.current.durationNs ≤ 0)
  := by
  have hinv := inv_of_reachable h
  refine ⟨?_, ?_, ?_, ?_, ?_, ?_, hinv.producer.thrown⟩
  · intro hpc
    apply hinv.phaseEventCount
    rw [hpc]
    rfl
  · intro e he
    have hle := hinv.producer.holds.phases e he
    cases hinv.together with
    | same phase commanded ready completed => omega
    | ahead phase idle commanded done => omega
  · intro hready
    have hbusy : s.consumer.pc.idle = false := by
      cases hpc : s.consumer.pc <;> simp [hpc] at hready ⊢
    have hentered : s.consumer.pc.entered = true := by
      cases hpc : s.consumer.pc <;> simp [hpc] at hready ⊢
    have hle := hinv.position_le hbusy
    rw [UInt64.le_iff_toNat_le, hinv.toNat_consumed hbusy hentered]
    omega
  · intro hleft
    have hentered : s.consumer.pc.entered = true := by
      cases hpc : s.consumer.pc <;> simp [hpc] at hleft ⊢
    obtain ⟨-, -, -, hexact⟩ := hinv.consumer.entered hentered
    rw [hexact.consumed, hinv.consumer.left hleft, Nat.add_sub_cancel_left, UInt64.ofNat_toNat]
  · intro hpc
    obtain ⟨m, hm, hexact⟩ := hinv.phaseMeasurement (by rw [hpc]; rfl)
    use m, hm
    rw [hexact.consumed, UInt64.ofNat_toNat]
  · intro hpc
    have hexact := hinv.producer.validating hpc
    rw [hexact.consumed, hexact.checksum, expectedChecksum_eq, UInt64.ofNat_toNat]
    use rfl, rfl
    apply hexact.orderValueMismatch

/-- One warm-up event and two measured ones, in batches of one. -/
def twoEvents : Config where
  events := 2
  warmupEvents := 1
  warmupRuns := 1
  producerBatch := 1
  drainLimit := 16
  producerCpu := 0
  consumerCpu := 1
  producerBatch_pos := by decide
  events_dvd := by decide
  warmupEvents_dvd := by decide

/-- A run of `twoEvents` up to the checks of the measured phase. The consumer drains both events
at once, and its first load of the command is stale. -/
def drainedTogether : List Action :=
  [.beginCount, .endCount, .command, .loadCommanded 0, .loadCommanded 1, .readCount, .storeReady,
    .loadReady 1, .start 10, .tryPublishBatch true, .consumeAvailable 1, .handle, .release,
    .loadConsumed 1 20, .beginMeasurement, .endMeasurement, .complete, .loadCompleted 1,
    .readMeasurement, .validate,
    .beginCount, .endCount, .command, .loadCommanded 2, .readCount, .storeReady,
    .loadReady 2, .start 30, .tryPublishBatch true, .tryPublishBatch false,
    .tryPublishBatch true, .consumeAvailable 2, .handle, .handle, .release,
    .loadConsumed 2 40, .beginMeasurement, .endMeasurement, .complete, .loadCompleted 2,
    .readMeasurement]

theorem handshake_safe_drainedTogether :
  ∃ s, (runAllPhases twoEvents).run drainedTogether (runAllPhases twoEvents).initial = some s ∧
    s.producer.phase = 2 ∧ s.producer.current.result.checksum = 1 ∧
    s.producer.current.result.orderValueMismatch = 0
  := by
  refine ⟨_, rfl, rfl, rfl, ?_⟩
  apply ((handshake_safe twoEvents ⟨drainedTogether, rfl⟩).2.2.2.2.2.1 rfl).2.2

end State

end PairedBenchmark
