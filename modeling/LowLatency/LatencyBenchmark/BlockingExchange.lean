import LowLatency.LatencyBenchmark.BlockingSlot
import LowLatency.Library.Span

/-!
# What the blocking baseline measures

The consumer takes the values which the producer has published, in order, each one once. The
samples are what they claim to be.
-/

namespace LatencyBenchmark

/-! ### The commands in use -/

/-- The commands of each thread. -/
def Uses : Role → Command Condition Slot (Option Int64) → Prop
  | .producer, command => ∃ publishedAt, command = publish publishedAt
  | .consumer, command => command = consume

theorem discipline : Monitor.Discipline Uses := by
  constructor
  · intro t t' command command' huses huses' hsame
    cases t with
    | producer =>
        obtain ⟨publishedAt, rfl⟩ := huses
        cases t' with
        | producer => rfl
        | consumer =>
            obtain rfl : command' = consume := huses'
            cases hsame
    | consumer =>
        obtain rfl : command = consume := huses
        cases t' with
        | producer =>
            obtain ⟨publishedAt, rfl⟩ := huses'
            cases hsame
        | consumer => rfl
  · intro t t' command command' data huses huses' hfalse htrue
    cases t with
    | producer =>
        obtain ⟨publishedAt, rfl⟩ := huses
        cases t' with
        | producer =>
            obtain ⟨publishedAt', rfl⟩ := huses'
            cases htrue
        | consumer =>
            obtain rfl : command' = consume := huses'
            rfl
    | consumer =>
        obtain rfl : command = consume := huses
        cases t' with
        | producer =>
            obtain ⟨publishedAt', rfl⟩ := huses'
            rfl
        | consumer =>
            obtain rfl : command' = consume := huses'
            cases htrue

/-! ### The exchange of values -/

/-- The values put into the slot, of those handed to `publish`. -/
def put (published : List Int64) : Stage Condition Slot (Option Int64) → ℕ
  | .pending _ => published.length - 1
  | .idle _ | .done _ => published.length

/-- The values got from the slot, with one that `consume` has not returned yet. -/
def got (taken : List Int64) : Stage Condition Slot (Option Int64) → ℕ
  | .done _ => taken.length + 1
  | .idle _ | .pending _ => taken.length

/-- How the values published and taken, the stages of the producer and of the consumer and the slot
belong together. -/
structure Exchange (published taken : List Int64)
    (producer consumer : Stage Condition Slot (Option Int64)) (slot : Slot) : Prop where
  pending : ∀ command, producer = .pending command →
    ∃ before publishedAt, published = before ++ [publishedAt] ∧ command = publish publishedAt
  done : ∀ result, consumer = .done result →
    slot.full = false ∧
      ∃ publishedAt, result = some publishedAt ∧ published[taken.length]? = some publishedAt
  full : slot.full = true →
    put published producer = got taken consumer + 1
      ∧ published[got taken consumer]? = some slot.publishedAt
  empty : slot.full = false → put published producer = got taken consumer
  taken : taken <+: published

namespace Exchange

variable {published taken : List Int64} {producer consumer : Stage Condition Slot (Option Int64)}
  {slot : Slot}

theorem init :
  Exchange [] [] (.idle none) (.idle none) { publishedAt := 0, full := false }
  := by
  constructor
  · simp
  · simp
  · simp
  · intro _
    rfl
  · rfl

/-- A value stays at its place when another one is published. -/
theorem getElem?_concat {k : ℕ} {value value' : Int64} (h : published[k]? = some value) :
  (published ++ [value'])[k]? = some value
  := by
  obtain ⟨hlt, -⟩ := List.getElem?_eq_some_iff.mp h
  rw [List.getElem?_append_left hlt, h]

/-- The producer enters `publish`. -/
theorem enter_publish {result : Option (Option Int64)}
    (h : Exchange published taken (.idle result) consumer slot) (publishedAt : Int64) :
  Exchange (published ++ [publishedAt]) taken (.pending (publish publishedAt)) consumer slot
  := by
  have hput : put (published ++ [publishedAt]) (.pending (publish publishedAt))
      = put published (.idle result) := by
    rw [put, put, List.length_append, List.length_singleton]
    omega
  constructor
  · intro command hcommand
    obtain rfl := Stage.pending.inj hcommand
    use published, publishedAt
  · intro result' hresult
    obtain ⟨hfull, value, hvalue, hplace⟩ := h.done result' hresult
    use hfull, value, hvalue
    apply getElem?_concat hplace
  · intro hfull
    obtain ⟨hcount, hplace⟩ := h.full hfull
    rw [hput]
    use hcount
    apply getElem?_concat hplace
  · intro hempty
    rw [hput]
    apply h.empty hempty
  · apply h.taken.trans (List.prefix_append _ _)

/-- The producer puts its value into the slot. -/
theorem publish_done {command : Command Condition Slot (Option Int64)}
    (h : Exchange published taken (.pending command) consumer slot)
    (hguard : command.guard slot = true) (hconsumer : ∀ result, consumer ≠ .done result) :
  Exchange published taken (.done (command.update slot).1) consumer (command.update slot).2
  := by
  obtain ⟨before, publishedAt, rfl, rfl⟩ := h.pending command rfl
  have hempty := h.empty (by simpa [publish] using hguard)
  rw [put, List.length_append, List.length_singleton, Nat.add_sub_cancel] at hempty
  constructor
  · simp
  · intro result hresult
    cases hconsumer result hresult
  · intro _
    rw [put, ← hempty, List.length_append, List.length_singleton]
    use rfl
    apply List.getElem?_concat_length
  · intro hfull
    cases hfull
  · apply h.taken

/-- The producer has published. -/
theorem publish_returns {result : Option Int64} {result' : Option (Option Int64)}
    (h : Exchange published taken (.done result) consumer slot) :
  Exchange published taken (.idle result') consumer slot
  := by
  constructor
  · simp
  · apply h.done
  · apply h.full
  · apply h.empty
  · apply h.taken

/-- The consumer enters `consume`. -/
theorem enter_consume {result : Option (Option Int64)}
    {command : Command Condition Slot (Option Int64)}
    (h : Exchange published taken producer (.idle result) slot) :
  Exchange published taken producer (.pending command) slot
  := by
  constructor
  · apply h.pending
  · simp
  · apply h.full
  · apply h.empty
  · apply h.taken

/-- The consumer gets the value from the slot. -/
theorem consume_done (h : Exchange published taken producer (.pending consume) slot)
    (hguard : consume.guard slot = true) :
  Exchange published taken producer (.done (consume.update slot).1) (consume.update slot).2
  := by
  obtain ⟨hcount, hplace⟩ := h.full hguard
  constructor
  · apply h.pending
  · intro result hresult
    obtain rfl := Stage.done.inj hresult
    use rfl, slot.publishedAt, rfl
    apply hplace
  · intro hfull
    cases hfull
  · intro _
    rw [hcount]
    rfl
  · apply h.taken

/-- The consumer has consumed the next value. -/
theorem consume_returns {publishedAt : Int64} {result : Option (Option Int64)}
    (h : Exchange published taken producer (.done (some publishedAt)) slot) :
  Exchange published (taken ++ [publishedAt]) producer (.idle result) slot
  := by
  obtain ⟨hempty, value, hvalue, hplace⟩ := h.done _ rfl
  obtain rfl := Option.some.inj hvalue
  have hgot : got (taken ++ [publishedAt]) (.idle result) = got taken (.done (some publishedAt)) :=
    List.length_append
  constructor
  · apply h.pending
  · simp
  · rw [hgot]
    apply h.full
  · rw [hgot]
    apply h.empty
  · obtain ⟨rest, rfl⟩ := h.taken
    rw [List.getElem?_append_right (Nat.le_refl _), Nat.sub_self] at hplace
    cases rest with
    | nil => cases hplace
    | cons value rest =>
        obtain rfl := Option.some.inj hplace
        use rest
        rw [List.append_assoc]
        rfl

/-- At most two values are on their way. -/
theorem length_le (h : Exchange published taken producer consumer slot) :
  published.length ≤ taken.length + 2
  := by
  have hput : published.length ≤ put published producer + 1 := by
    cases producer with
    | pending _ =>
        rw [put]
        omega
    | idle _ | done _ => apply Nat.le_succ
  cases hfull : slot.full with
  | true =>
      obtain ⟨hcount, -⟩ := h.full hfull
      cases consumer with
      | done result =>
          obtain ⟨hempty, -⟩ := h.done result rfl
          rw [hfull] at hempty
          cases hempty
      | idle _ | pending _ =>
          rw [got] at hcount
          omega
  | false =>
      have hcount := h.empty hfull
      cases consumer with
      | idle _ | pending _ | done _ =>
          rw [got] at hcount
          omega

end Exchange

/-! ### The samples -/

/-- The samples hold the latencies after the warm-up. -/
def Recorded (samples latencies : List Int64) : Prop :=
  samples = latencies.drop warmupCount
    ++ List.replicate (sampleCount - (latencies.drop warmupCount).length) 0

/-- When all latencies are recorded the samples are those after the warm-up. -/
theorem Recorded.complete {samples latencies : List Int64} (h : Recorded samples latencies)
    (hlength : latencies.length = total) :
  samples = latencies.drop warmupCount
  := by
  have hdrop : (latencies.drop warmupCount).length = sampleCount := by
    rw [List.length_drop, hlength, total, Nat.add_sub_cancel_left]
  rw [Recorded, hdrop, Nat.sub_self, List.replicate_zero, List.append_nil] at h
  apply h

/-- The next latency is recorded at its place. -/
theorem Recorded.record {samples latencies : List Int64} (h : Recorded samples latencies)
    (hlt : latencies.length < total) (elapsed : Int64) :
  Recorded (State.record samples latencies.length elapsed) (latencies ++ [elapsed])
  := by
  rw [State.record]
  split
  case isTrue hge =>
    have hlength : (latencies.drop warmupCount).length = latencies.length - warmupCount :=
      List.length_drop
    have hplace : (latencies.drop warmupCount).length < sampleCount := by
      rw [total] at hlt
      omega
    rw [Recorded, List.drop_append_of_le_length hge, h, ← hlength,
      Table.set_append_replicate _ _ _ hplace, List.length_append, List.length_singleton]
  case isFalse hnot =>
    have hnone : (latencies ++ [elapsed]).drop warmupCount = [] := by
      apply List.drop_eq_nil_of_le
      rw [List.length_append, List.length_singleton]
      omega
    rw [Recorded, List.drop_eq_nil_of_le (by omega)] at h
    rw [Recorded, hnone, h]

/-! ### The invariant -/

/-- Where the producer stands tells what it has published, and whether it is inside `publish`. -/
def ProducerAt (published : List Int64) (stage : Stage Condition Slot (Option Int64)) :
    ProducerPlace → Prop
  | .starting => (∃ result, stage = .idle result) ∧ published.length = 0
  | .publish sequence =>
      (∃ result, stage = .idle result) ∧ published.length = sequence ∧ sequence < total
  | .publishing sequence =>
      (∀ result, stage ≠ .idle result) ∧ published.length = sequence + 1 ∧ sequence < total
  | .joining | .finished => (∃ result, stage = .idle result) ∧ published.length = total

/-- Where the consumer stands tells what it has taken, and whether it is inside `consume`. -/
def ConsumerAt (taken received : List Int64) (stage : Stage Condition Slot (Option Int64)) :
    ConsumerPlace → Prop
  | .waitStart => (∃ result, stage = .idle result) ∧ taken.length = 0 ∧ received.length = 0
  | .consume consumed =>
      (∃ result, stage = .idle result) ∧ taken.length = consumed ∧ received.length = consumed
        ∧ consumed < total
  | .consuming consumed =>
      (∀ result, stage ≠ .idle result) ∧ taken.length = consumed ∧ received.length = consumed
        ∧ consumed < total
  | .sample consumed publishedAt =>
      (∃ result, stage = .idle result) ∧ received.length = consumed ∧ consumed < total
        ∧ ∃ before, taken = before ++ [publishedAt] ∧ before.length = consumed
  | .finished => (∃ result, stage = .idle result) ∧ taken.length = total ∧ received.length = total

/-- How long the values taken have been on their way, for those whose arrival has been read from
the clock. -/
def latencies (received taken : List Int64) : List Int64 :=
  List.zipWith (fun now publishedAt => now - publishedAt) received taken

/-- A value taken last has no latency yet. -/
theorem latencies_concat {received taken : List Int64} (h : received.length = taken.length)
    (publishedAt : Int64) :
  latencies received (taken ++ [publishedAt]) = latencies received taken
  := by
  have happend : latencies (received ++ []) (taken ++ [publishedAt])
      = latencies received taken ++ latencies [] [publishedAt] := List.zipWith_append h
  rw [List.append_nil] at happend
  rw [happend]
  apply List.append_nil

namespace State

variable {s s' : State}

/-- What holds at every reachable state. -/
structure Inv (s : State) : Prop where
  slot : s.slot.Inv Uses
  exchange : Exchange s.published s.taken (s.slot.phase .producer).stage
    (s.slot.phase .consumer).stage s.slot.data
  producer : ProducerAt s.published (s.slot.phase .producer).stage s.producerPlace
  consumer : ConsumerAt s.taken s.received (s.slot.phase .consumer).stage s.consumerPlace
  samples : Recorded s.samples (latencies s.received s.taken)
  startView_le : s.startView ≤ s.start.last
  started : s.start.current = false → s.producerPlace = .starting
  joined : s.producerPlace = .finished → s.consumerPlace = .finished

theorem inv_init :
  State.init.Inv
  := by
  constructor
  · apply Monitor.inv_init
  · apply Exchange.init
  · exact ⟨⟨none, rfl⟩, rfl⟩
  · exact ⟨⟨none, rfl⟩, rfl, rfl⟩
  · rfl
  · rfl
  · intro _
    rfl
  · intro hfinished
    cases hfinished

/-! ### The steps of the producer -/

/-- The producer goes on to its next call of `publish`. -/
theorem producerAt_next {published : List Int64} {result : Option (Option Int64)} {sequence : ℕ}
    (hlength : published.length = sequence) (hle : sequence ≤ total) :
  ProducerAt published (.idle result) (nextPublish sequence)
  := by
  rw [nextPublish]
  split
  case isTrue hlt => exact ⟨⟨result, rfl⟩, hlength, hlt⟩
  case isFalse hnot => exact ⟨⟨result, rfl⟩, by omega⟩

theorem nextPublish_ne_finished (sequence : ℕ) :
  nextPublish sequence ≠ .finished
  := by
  rw [nextPublish]
  split
  · simp
  · simp

/-- The producer begins. -/
theorem Inv.starting (h : s.Inv) (hplace : s.producerPlace = .starting) :
  Inv { s with start := s.start.store true, producerPlace := nextPublish 0 }
  := by
  obtain ⟨⟨result, hstage⟩, hlength⟩ : ProducerAt _ _ .starting := hplace ▸ h.producer
  constructor
  · apply h.slot
  · apply h.exchange
  · dsimp only
    rw [hstage]
    apply producerAt_next hlength (Nat.zero_le total)
  · apply h.consumer
  · apply h.samples
  · apply Nat.le_succ_of_le h.startView_le
  · intro hfalse
    rw [Location.current_store] at hfalse
    cases hfalse
  · intro hfinished
    cases nextPublish_ne_finished 0 hfinished

/-- The producer enters `publish`. -/
theorem Inv.publish (h : s.Inv) {sequence : ℕ} (hplace : s.producerPlace = .publish sequence)
    {now : Int64} {slot : Monitor Role Condition Slot (Option Int64)}
    (henter : s.slot.enter .producer (LatencyBenchmark.publish now) = some slot) :
  Inv { s with
    slot := slot
    producerPlace := .publishing sequence
    published := s.published ++ [now] }
  := by
  obtain ⟨⟨result, hstage⟩, hlength, hlt⟩ : ProducerAt _ _ (.publish sequence) :=
    hplace ▸ h.producer
  obtain ⟨hdata, hproducer, hothers⟩ := Monitor.stage_enter henter
  have hconsumer := hothers .consumer (by simp)
  have hexchange := h.exchange
  rw [hstage] at hexchange
  have huses : Uses .producer (LatencyBenchmark.publish now) := ⟨now, rfl⟩
  constructor
  · apply h.slot.enter huses henter
  · dsimp only
    rw [hdata, hproducer, hconsumer]
    apply hexchange.enter_publish now
  · dsimp only
    rw [hproducer]
    refine ⟨by simp, ?_, hlt⟩
    rw [List.length_append, List.length_singleton, hlength]
  · dsimp only
    rw [hconsumer]
    apply h.consumer
  · apply h.samples
  · apply h.startView_le
  · intro hfalse
    have hstarting := h.started hfalse
    rw [hplace] at hstarting
    cases hstarting
  · intro hfinished
    cases hfinished

/-- The producer takes a step inside `publish`. -/
theorem Inv.publishing (h : s.Inv) {sequence : ℕ} (hplace : s.producerPlace = .publishing sequence)
    {sleeper : Option Role} {slot : Monitor Role Condition Slot (Option Int64)}
    (hresume : s.slot.resume .producer sleeper = some slot) :
  (s.afterPublish sequence slot).Inv
  := by
  obtain ⟨hstage, hlength, hlt⟩ : ProducerAt _ _ (.publishing sequence) := hplace ▸ h.producer
  have hslot := h.slot.resume discipline hresume
  have hstarted (place : ProducerPlace) : s.start.current = false → place = .starting := by
    intro hfalse
    have hstarting := h.started hfalse
    rw [hplace] at hstarting
    cases hstarting
  have hjoined : s.producerPlace ≠ .finished := by
    rw [hplace]
    simp
  cases h.slot.performs hresume with
  | stays hdata hstages hphase =>
      have hafter : s.afterPublish sequence slot = { s with slot := slot } := by
        rw [afterPublish]
        split
        case h_1 result hphase' => cases hphase result hphase'
        case h_2 => rfl
      rw [hafter]
      constructor
      · apply hslot
      · dsimp only
        rw [hdata, hstages, hstages]
        apply h.exchange
      · dsimp only
        rw [hstages]
        apply h.producer
      · dsimp only
        rw [hstages]
        apply h.consumer
      · apply h.samples
      · apply h.startView_le
      · apply h.started
      · apply h.joined
  | performs command hinside hpending hguard hdata hdone hothers =>
      have hafter : s.afterPublish sequence slot = { s with slot := slot } := by
        rw [afterPublish]
        split
        case h_1 result hphase' =>
          rw [hphase'] at hdone
          cases hdone
        case h_2 => rfl
      have hexchange := h.exchange
      have hconsumer (result : Option Int64) :
          (s.slot.phase .consumer).stage ≠ .done result := by
        intro hresult
        cases h.slot.eq_of_inside hinside (Phase.inside_of_done hresult)
      rw [hpending] at hexchange
      rw [hafter]
      constructor
      · apply hslot
      · dsimp only
        rw [hdata, hdone, hothers .consumer (by simp)]
        apply hexchange.publish_done hguard hconsumer
      · dsimp only
        rw [hdone, hplace]
        exact ⟨by simp, hlength, hlt⟩
      · dsimp only
        rw [hothers .consumer (by simp)]
        apply h.consumer
      · apply h.samples
      · apply h.startView_le
      · apply h.started
      · apply h.joined
  | returns result hdone hdata hphase hothers =>
      have hexchange := h.exchange
      rw [hdone] at hexchange
      rw [afterPublish, hphase]
      constructor
      · apply hslot
      · dsimp only
        rw [hdata, hphase, hothers .consumer (by simp)]
        apply hexchange.publish_returns
      · dsimp only
        rw [hphase]
        apply producerAt_next hlength hlt
      · dsimp only
        rw [hothers .consumer (by simp)]
        apply h.consumer
      · apply h.samples
      · apply h.startView_le
      · apply hstarted
      · intro hfinished
        cases nextPublish_ne_finished _ hfinished

theorem Inv.stepProducer (h : s.Inv) {now : Int64} {sleeper : Option Role}
    (hstep : s.stepProducer now sleeper = some s') :
  s'.Inv
  := by
  rw [State.stepProducer] at hstep
  split at hstep
  case h_1 hplace =>
    obtain rfl := Option.some.inj hstep
    apply h.starting hplace
  case h_2 sequence hplace =>
    obtain ⟨slot, henter, rfl⟩ := Option.map_eq_some_iff.mp hstep
    apply h.publish hplace henter
  case h_3 sequence hplace =>
    obtain ⟨slot, hresume, rfl⟩ := Option.map_eq_some_iff.mp hstep
    apply h.publishing hplace hresume
  case h_4 hplace =>
    split at hstep
    case h_1 hconsumer =>
      obtain rfl := Option.some.inj hstep
      have hproducer := h.producer
      rw [hplace] at hproducer
      constructor
      · apply h.slot
      · apply h.exchange
      · apply hproducer
      · apply h.consumer
      · apply h.samples
      · apply h.startView_le
      · intro hfalse
        have hstarting := h.started hfalse
        rw [hplace] at hstarting
        cases hstarting
      · intro _
        apply hconsumer
    case h_2 => cases hstep
  case h_5 => cases hstep

/-! ### The steps of the consumer -/

/-- The consumer goes on to its next call of `consume`. -/
theorem consumerAt_next {taken received : List Int64} {result : Option (Option Int64)}
    {consumed : ℕ} (htaken : taken.length = consumed) (hreceived : received.length = consumed)
    (hle : consumed ≤ total) :
  ConsumerAt taken received (.idle result) (nextConsume consumed)
  := by
  rw [nextConsume]
  split
  case isTrue hlt => exact ⟨⟨result, rfl⟩, htaken, hreceived, hlt⟩
  case isFalse hnot => exact ⟨⟨result, rfl⟩, by omega, by omega⟩

/-- Where the consumer has a step, the producer has not joined it. -/
theorem Inv.not_joined (h : s.Inv) (hplace : s.consumerPlace ≠ .finished) :
  s.producerPlace ≠ .finished
  := by
  intro hfinished
  apply hplace (h.joined hfinished)

/-- The consumer enters `consume`. -/
theorem Inv.consume (h : s.Inv) {consumed : ℕ} (hplace : s.consumerPlace = .consume consumed)
    {slot : Monitor Role Condition Slot (Option Int64)}
    (henter : s.slot.enter .consumer LatencyBenchmark.consume = some slot) :
  Inv { s with slot := slot, consumerPlace := .consuming consumed }
  := by
  obtain ⟨⟨result, hstage⟩, htaken, hreceived, hlt⟩ : ConsumerAt _ _ _ (.consume consumed) :=
    hplace ▸ h.consumer
  obtain ⟨hdata, hconsumer, hothers⟩ := Monitor.stage_enter henter
  have hproducer := hothers .producer (by simp)
  have hexchange := h.exchange
  rw [hstage] at hexchange
  have huses : Uses .consumer LatencyBenchmark.consume := rfl
  constructor
  · apply h.slot.enter huses henter
  · dsimp only
    rw [hdata, hproducer, hconsumer]
    apply hexchange.enter_consume
  · dsimp only
    rw [hproducer]
    apply h.producer
  · dsimp only
    rw [hconsumer]
    exact ⟨by simp, htaken, hreceived, hlt⟩
  · apply h.samples
  · apply h.startView_le
  · apply h.started
  · intro hfinished
    cases h.not_joined (by simp [hplace]) hfinished

/-- The consumer takes a step inside `consume`. -/
theorem Inv.consuming (h : s.Inv) {consumed : ℕ} (hplace : s.consumerPlace = .consuming consumed)
    {sleeper : Option Role} {slot : Monitor Role Condition Slot (Option Int64)}
    (hresume : s.slot.resume .consumer sleeper = some slot) :
  (s.afterConsume consumed slot).Inv
  := by
  obtain ⟨hstage, htaken, hreceived, hlt⟩ : ConsumerAt _ _ _ (.consuming consumed) :=
    hplace ▸ h.consumer
  have hslot := h.slot.resume discipline hresume
  have hjoined : s.producerPlace ≠ .finished := h.not_joined (by simp [hplace])
  cases h.slot.performs hresume with
  | stays hdata hstages hphase =>
      have hafter : s.afterConsume consumed slot = { s with slot := slot } := by
        rw [afterConsume]
        split
        case h_1 publishedAt hphase' => cases hphase _ hphase'
        case h_2 => rfl
      rw [hafter]
      constructor
      · apply hslot
      · dsimp only
        rw [hdata, hstages, hstages]
        apply h.exchange
      · dsimp only
        rw [hstages]
        apply h.producer
      · dsimp only
        rw [hstages]
        apply h.consumer
      · apply h.samples
      · apply h.startView_le
      · apply h.started
      · apply h.joined
  | performs command hinside hpending hguard hdata hdone hothers =>
      have hafter : s.afterConsume consumed slot = { s with slot := slot } := by
        rw [afterConsume]
        split
        case h_1 publishedAt hphase' =>
          rw [hphase'] at hdone
          cases hdone
        case h_2 => rfl
      have huses := h.slot.uses .consumer command (Phase.command_of_pending hpending)
      obtain rfl : command = LatencyBenchmark.consume := huses
      have hexchange := h.exchange
      rw [hpending] at hexchange
      rw [hafter]
      constructor
      · apply hslot
      · dsimp only
        rw [hdata, hdone, hothers .producer (by simp)]
        apply hexchange.consume_done hguard
      · dsimp only
        rw [hothers .producer (by simp)]
        apply h.producer
      · dsimp only
        rw [hdone, hplace]
        exact ⟨by simp, htaken, hreceived, hlt⟩
      · apply h.samples
      · apply h.startView_le
      · apply h.started
      · apply h.joined
  | returns result hdone hdata hphase hothers =>
      have hexchange := h.exchange
      rw [hdone] at hexchange
      obtain ⟨-, publishedAt, rfl, -⟩ := hexchange.done result rfl
      rw [afterConsume, hphase]
      constructor
      · apply hslot
      · dsimp only
        rw [hdata, hphase, hothers .producer (by simp)]
        apply hexchange.consume_returns
      · dsimp only
        rw [hothers .producer (by simp)]
        apply h.producer
      · dsimp only
        rw [hphase]
        exact ⟨⟨_, rfl⟩, hreceived, hlt, s.taken, rfl, htaken⟩
      · dsimp only
        rw [latencies_concat (by omega)]
        apply h.samples
      · apply h.startView_le
      · apply h.started
      · intro hfinished
        cases hjoined hfinished

/-- The consumer samples the latency of the value it has taken last. -/
theorem Inv.sample (h : s.Inv) {consumed : ℕ} {publishedAt : Int64}
    (hplace : s.consumerPlace = .sample consumed publishedAt) (now : Int64) :
  Inv { s with
    samples := record s.samples consumed (now - publishedAt)
    consumerPlace := nextConsume (consumed + 1)
    received := s.received ++ [now] }
  := by
  obtain ⟨⟨result, hstage⟩, hreceived, hlt, before, htaken, hbefore⟩ :
    ConsumerAt _ _ _ (.sample consumed publishedAt) := hplace ▸ h.consumer
  have hlength : s.received.length = before.length := by rw [hreceived, hbefore]
  have hold : latencies s.received s.taken = latencies s.received before := by
    rw [htaken, latencies_concat hlength]
  have hnew : latencies (s.received ++ [now]) s.taken
      = latencies s.received before ++ [now - publishedAt] := by
    rw [htaken, latencies, List.zipWith_append hlength]
    rfl
  have hcount : (latencies s.received before).length = consumed := by
    rw [latencies, List.length_zipWith, hlength, Nat.min_self, hbefore]
  have hsamples := h.samples
  rw [hold] at hsamples
  constructor
  · apply h.slot
  · apply h.exchange
  · apply h.producer
  · dsimp only
    rw [hstage]
    apply consumerAt_next
    · rw [htaken, List.length_append, List.length_singleton, hbefore]
    · rw [List.length_append, List.length_singleton, hreceived]
    · apply hlt
  · dsimp only
    rw [hnew, ← hcount]
    apply hsamples.record
    rw [hcount]
    apply hlt
  · apply h.startView_le
  · apply h.started
  · intro hfinished
    cases h.not_joined (by simp [hplace]) hfinished

theorem Inv.stepConsumer (h : s.Inv) {now : Int64} {sleeper : Option Role}
    (hstep : s.stepConsumer now sleeper = some s') :
  s'.Inv
  := by
  rw [State.stepConsumer] at hstep
  split at hstep
  case h_1 => cases hstep
  case h_2 consumed hplace =>
    obtain ⟨slot, henter, rfl⟩ := Option.map_eq_some_iff.mp hstep
    apply h.consume hplace henter
  case h_3 consumed hplace =>
    obtain ⟨slot, hresume, rfl⟩ := Option.map_eq_some_iff.mp hstep
    apply h.consuming hplace hresume
  case h_4 consumed publishedAt hplace =>
    obtain rfl := Option.some.inj hstep
    apply h.sample hplace
  case h_5 => cases hstep

/-- A load of `start`. -/
theorem Inv.poll (h : s.Inv) {place : ℕ} (hstep : s.poll place = some s') :
  s'.Inv
  := by
  rw [State.poll] at hstep
  split at hstep
  case h_1 hplace =>
    obtain ⟨start, hload, rfl⟩ := Option.map_eq_some_iff.mp hstep
    obtain ⟨-, hlast, -⟩ := Location.load_eq_some_iff.mp hload
    obtain ⟨⟨result, hstage⟩, htaken, hreceived⟩ : ConsumerAt _ _ _ .waitStart :=
      hplace ▸ h.consumer
    constructor
    · apply h.slot
    · apply h.exchange
    · apply h.producer
    · dsimp only
      rw [hstage]
      split
      case isTrue => apply consumerAt_next htaken hreceived (Nat.zero_le total)
      case isFalse => exact ⟨⟨result, rfl⟩, htaken, hreceived⟩
    · apply h.samples
    · apply hlast
    · apply h.started
    · intro hfinished
      cases h.not_joined (by simp [hplace]) hfinished
  case h_2 => cases hstep

/-- A thread that is woken for no reason. -/
theorem Inv.wake (h : s.Inv) {role : Role} {slot : Monitor Role Condition Slot (Option Int64)}
    (hwake : s.slot.wake role = some slot) :
  Inv { s with slot := slot }
  := by
  obtain ⟨hdata, hstages⟩ := Monitor.stage_wake hwake
  constructor
  · apply h.slot.wake hwake
  · dsimp only
    rw [hdata, hstages, hstages]
    apply h.exchange
  · dsimp only
    rw [hstages]
    apply h.producer
  · dsimp only
    rw [hstages]
    apply h.consumer
  · apply h.samples
  · apply h.startView_le
  · apply h.started
  · apply h.joined

theorem Inv.step (h : s.Inv) {a : Action} (hstep : s.step a = some s') :
  s'.Inv
  := by
  cases a with
  | producer now sleeper => apply h.stepProducer hstep
  | consumer now sleeper => apply h.stepConsumer hstep
  | poll place => apply h.poll hstep
  | wake role =>
      obtain ⟨slot, hwake, rfl⟩ := Option.map_eq_some_iff.mp hstep
      apply h.wake hwake

end State

/-! ### Every run -/

theorem reachable_inv {s : State} (hs : blockingLatency.Reachable s) :
  s.Inv
  := hs.invariant State.inv_init fun _ _ _ h hstep => h.step hstep

/-- In every order of the steps, the values taken are those published, in order and each one once,
and at most two are on their way. The samples hold the latencies after the warm-up, each one at its
place. When the producer has joined the consumer all values have been taken, and the samples are
the latencies. -/
theorem blocking_latency_exact {s : State} (hs : blockingLatency.Reachable s) :
  s.taken <+: s.published ∧ s.published.length ≤ s.taken.length + 2
    ∧ Recorded s.samples (latencies s.received s.taken)
    ∧ (s.producerPlace = .finished →
        s.published.length = total ∧ s.taken = s.published ∧ s.received.length = total
          ∧ s.samples = (latencies s.received s.published).drop warmupCount)
  := by
  have h := reachable_inv hs
  refine ⟨h.exchange.taken, h.exchange.length_le, h.samples, ?_⟩
  intro hplace
  obtain ⟨-, hpublished⟩ : ProducerAt _ _ .finished := hplace ▸ h.producer
  obtain ⟨-, htaken, hreceived⟩ : ConsumerAt _ _ _ .finished := h.joined hplace ▸ h.consumer
  have heq : s.taken = s.published := h.exchange.taken.eq_of_length (by rw [htaken, hpublished])
  refine ⟨hpublished, heq, hreceived, ?_⟩
  rw [← heq]
  apply h.samples.complete
  rw [latencies, List.length_zipWith, hreceived, htaken, Nat.min_self]

/-- Two values are on their way: the consumer sleeps in `consume` until the first one is in the
slot, and the producer has entered `publish` again. Then the consumer wakes, takes the first value
and reads the clock. -/
def twoOnTheirWay : List Action :=
  [.producer 0 none, .poll 1, .consumer 0 none, .consumer 0 none, .consumer 0 none,
    .producer 5 none, .producer 0 none, .producer 0 none, .producer 0 none,
    .producer 0 (some .consumer), .producer 0 none, .producer 8 none,
    .consumer 0 none, .consumer 0 none, .consumer 0 none, .consumer 0 none, .consumer 0 none,
    .consumer 20 none]

theorem blocking_latency_exact_twoOnTheirWay :
  ∃ s, blockingLatency.Reachable s ∧ s.published = [5, 8] ∧ s.taken = [5] ∧ s.received = [20]
    ∧ s.taken <+: s.published ∧ s.published.length ≤ s.taken.length + 2
    ∧ Recorded s.samples (latencies s.received s.taken)
  := by
  obtain ⟨s, hrun, hpublished, htaken, hreceived⟩ : ∃ s,
      blockingLatency.run twoOnTheirWay State.init = some s
      ∧ s.published = [5, 8] ∧ s.taken = [5] ∧ s.received = [20] := ⟨_, rfl, rfl, rfl, rfl⟩
  obtain ⟨hfirst, hlength, hrecorded, -⟩ := blocking_latency_exact ⟨_, hrun⟩
  use s, ⟨_, hrun⟩, hpublished, htaken, hreceived

end LatencyBenchmark
