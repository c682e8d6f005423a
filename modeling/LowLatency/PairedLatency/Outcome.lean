import LowLatency.PairedLatency.Flags

/-!
# The outcome of the paired latency benchmark

A run ends with the failure of the thread that could not be pinned, or else with all events
consumed, and then only a latency that is not positive makes it fail.
-/

open Disruptor (SequenceType Geometry)

namespace PairedLatency

variable {settings : Config}

namespace State

variable {s s' : State} {u : Disruptor.State ℕ Event}

/-! ### Runs -/

/-- What holds at every reachable state. -/
structure Inv (settings : Config) (s : State) (u : Disruptor.State ℕ Event) : Prop where
  ring : s.Ring settings u
  gathered : s.Gathered settings
  control : s.Control settings

theorem control_init (settings : Config) :
  (State.init settings).Control settings
  := by
  constructor
  · intro failure hfailure
    cases hfailure
  · intro hsome
    cases hsome
  · intro hcatching
    cases hcatching
  · rintro ⟨place, -, htrue⟩
    cases htrue
  · intro hsaw
    cases hsaw
  · rintro ⟨place, -, htrue⟩
    cases htrue
  · intro hfinished
    cases hfinished
  · rintro error (hcatching | hjoining)
    · cases hcatching
    · cases hjoining
  · intro outcome houtcome
    cases houtcome

/-- A step of a thread keeps the invariant. -/
theorem Inv.step (h : s.Inv settings u) {a : Action} (hstep : s.step settings a = some s') :
  ∃ u', s'.Inv settings u'
  := by
  obtain ⟨u', hring⟩ := h.ring.step hstep
  use u', hring
  · cases a with
    | producer place now => apply h.gathered.stepProducer hstep
    | producerFails failure =>
        simp only [State.step, failProducer] at hstep
        split at hstep
        case h_1 =>
          obtain rfl := Option.some.inj hstep
          exact h.gathered.frame rfl rfl rfl rfl rfl rfl rfl
        case h_2 => cases hstep
    | consumer place now => apply h.gathered.stepConsumer h.ring hstep
    | consumerFails failure =>
        simp only [State.step, failConsumer] at hstep
        split at hstep
        case h_1 =>
          obtain rfl := Option.some.inj hstep
          exact h.gathered.frame rfl rfl rfl rfl rfl rfl rfl
        case h_2 => cases hstep
  · cases a with
    | producer place now => apply h.control.stepProducer h.ring hstep
    | producerFails failure =>
        simp only [State.step, failProducer] at hstep
        split at hstep
        case h_1 hplace =>
          obtain rfl := Option.some.inj hstep
          apply h.control.move rfl (by rw [hplace]; rfl)
          · rintro error (hcatching | hjoining)
            · obtain rfl := ProducerPlace.catching.inj hcatching
              use ⟨failure, rfl⟩
              apply h.ring.written_eq_nil (Or.inr hplace)
            · cases hjoining
          · simp
          · intro hsaw
            cases hsaw
        case h_2 => cases hstep
    | consumer place now => apply h.control.stepConsumer h.gathered h.ring hstep
    | consumerFails failure =>
        simp only [State.step, failConsumer] at hstep
        split at hstep
        case h_1 hplace =>
          obtain rfl := Option.some.inj hstep
          apply h.control.throwConsumer hplace
        case h_2 => cases hstep

theorem exists_inv (hs : (runLatency settings).Reachable s) :
  ∃ u, s.Inv settings u
  := by
  apply hs.invariant
  · obtain ⟨u, hring⟩ := exists_ring_init settings
    exact ⟨u, hring, gathered_init settings, control_init settings⟩
  · rintro a s s' ⟨u, h⟩ hstep
    apply h.step hstep

/-! ### What is reported -/

/-- The samples that are positive are counted as they are summarized. -/
theorem positive_of_summarize {samples : List Int64} {warmupEvents measuredEvents : UInt64}
    {d : Distribution} (hlength : samples.length = warmupEvents.toNat + measuredEvents.toNat)
    (hlt : samples.length < 2 ^ 64) (h : summarize samples warmupEvents measuredEvents = some d) :
  d.positiveMeasuredEvents
    = UInt64.ofNat ((samples.drop warmupEvents.toNat).countP (0 < ·))
  := by
  have htotal : (warmupEvents + measuredEvents).toNat - warmupEvents.toNat
      = measuredEvents.toNat := by
    rw [UInt64.toNat_add, ← hlength, Nat.mod_eq_of_lt hlt]
    omega
  have htake : (samples.drop warmupEvents.toNat).take measuredEvents.toNat
      = samples.drop warmupEvents.toNat := by
    apply List.take_of_length_le
    rw [List.length_drop]
    omega
  simp only [summarize, htotal, Percentiles.mapM_range' samples hlength.ge, htake,
    Option.bind_eq_bind, Option.bind_some, Option.bind_eq_some_iff, Option.some.injEq] at h
  obtain ⟨_, -, _, -, _, -, _, -, _, -, _, -, rfl⟩ := h
  apply congrArg UInt64.ofNat
  apply (OrderStatistics.perm_sorted _).countP_eq

/-- What a run reports whose consumer is joined without an exception. -/
theorem Gathered.validate_eq (h : s.Gathered settings)
    (htotal : (s.stream.consumer 0).handled.length = settings.total.toNat) :
  ((∃ latency ∈ s.latencies, ¬latency > 0) ∧ s.validate settings = some (.error .invalidSample))
    ∨ (∀ latency ∈ s.latencies, latency > 0)
      ∧ ∃ d : Distribution,
        Percentiles.Reported (s.latencies.drop settings.warmupEvents.toNat) d.metrics
        ∧ d.positiveMeasuredEvents = settings.events
        ∧ s.validate settings = some (.ok { s.result with latency := d })
  := by
  have hlt := settings.total_lt
  have hsum := settings.total_toNat
  have hlength := h.length_latencies
  have hsamples : s.samples = s.latencies := by
    rw [h.samples, htotal, Nat.sub_self, List.replicate_zero, List.append_nil]
  have hconsumed : s.result.consumed = settings.total := by
    rw [h.consumed, htotal, UInt64.ofNat_toNat]
  have hchecksum : s.result.sequenceChecksum = expectedChecksum settings.total := by
    rw [h.checksum, htotal]
    symm
    apply PairedBenchmark.expectedChecksum_eq
  have hle : s.latencies.countP (fun latency => ¬latency > 0) ≤ s.latencies.length :=
    List.countP_le_length
  rw [State.validate]
  by_cases hpositive : ∀ latency ∈ s.latencies, latency > 0
  · right
    use hpositive
    have hcount : s.latencies.countP (fun latency => ¬latency > 0) = 0 := by
      apply List.countP_eq_zero.mpr
      intro latency hlatency
      simp only [hpositive latency hlatency, not_true, decide_false, Bool.false_eq_true,
        not_false_eq_true]
    have hnonpositive : s.result.nonpositiveLatencyCount = 0 := by
      rw [h.nonpositive, hcount]
      rfl
    have hlength' : s.latencies.length
        = settings.warmupEvents.toNat + settings.events.toNat := by omega
    obtain ⟨d, hd, hreported⟩ :=
      Percentiles.summarize_reported hlength' settings.events_pos (by omega)
    have hmeasured := positive_of_summarize hlength' (by omega) hd
    have hall : (s.latencies.drop settings.warmupEvents.toNat).countP (0 < ·)
        = settings.events.toNat := by
      rw [List.countP_eq_length.mpr, List.length_drop]
      · omega
      · intro latency hlatency
        simpa using hpositive latency (List.mem_of_mem_drop hlatency)
    rw [hall, UInt64.ofNat_toNat] at hmeasured
    use d, hreported, hmeasured
    simp only [hconsumed, hchecksum, h.mismatch, hnonpositive, ne_eq, not_true, or_self, if_false,
      hsamples, hd, Option.map_some, hmeasured]
  · left
    simp only [not_forall] at hpositive
    obtain ⟨latency, hlatency, hnot⟩ := hpositive
    refine ⟨⟨latency, hlatency, hnot⟩, ?_⟩
    have hcount : 0 < s.latencies.countP (fun latency => ¬latency > 0) := by
      apply List.countP_pos_iff.mpr
      use latency, hlatency
      simpa using hnot
    have hnonpositive : s.result.nonpositiveLatencyCount ≠ 0 := by
      rw [h.nonpositive, ne_eq, ← UInt64.toNat_inj, UInt64.toNat_ofNat',
        Nat.mod_eq_of_lt (by omega)]
      have hzero : (0 : UInt64).toNat = 0 := rfl
      omega
    rw [if_pos]
    right
    right
    right
    apply hnonpositive

end State

/-- The samples are exact. In every run the handler has been called on the events written, in
order, each with its sequence, and the samples are their latencies. A run that ends reports the
failure of a thread to pin itself, before anything is published, or that a latency is not
positive, or else the distribution of the measured latencies, all of which are positive. -/
theorem run_latency_exact {s : State} (hs : (runLatency settings).Reachable s) :
  (s.stream.consumer 0).handled
      = (Disruptor.stream geometry.wrapping 0 s.stream.producer.written).take
          (s.stream.consumer 0).handled.length
    ∧ s.received.length = (s.stream.consumer 0).handled.length
    ∧ s.samples = s.latencies
        ++ List.replicate (settings.total.toNat - (s.stream.consumer 0).handled.length) 0
    ∧ ∀ outcome, s.producerPlace = .finished outcome →
        (∃ pinFailure, outcome = some (.error (.pin pinFailure)))
            ∧ s.stream.producer.written = []
        ∨ (s.stream.consumer 0).handled.length = settings.total.toNat
          ∧ (((∃ latency ∈ s.latencies, ¬latency > 0)
                ∧ outcome = some (.error .invalidSample))
            ∨ (∀ latency ∈ s.latencies, latency > 0)
              ∧ ∃ d : Distribution,
                Percentiles.Reported (s.latencies.drop settings.warmupEvents.toNat) d.metrics
                ∧ d.positiveMeasuredEvents = settings.events
                ∧ outcome = some (.ok { s.result with latency := d }))
  := by
  obtain ⟨u, h⟩ := State.exists_inv hs
  use h.ring.handled_take.1, h.gathered.received, h.gathered.samples
  intro outcome houtcome
  rcases (h.control.outcome outcome houtcome).2 with hpin | ⟨htotal, rfl⟩
  · left
    apply hpin
  · right
    use htotal
    apply h.gathered.validate_eq htotal

/-- The measured event was received five nanoseconds after it was published. -/
theorem run_latency_exact_twoEvents :
  ∃ s, (runLatency Config.twoEvents).Reachable s ∧ s.samples = [2, 5]
    ∧ ∃ d : Distribution, Percentiles.Reported [5] d.metrics
      ∧ s.producerPlace = .finished (some (.ok { s.result with latency := d }))
  := by
  obtain ⟨s, hrun, hsamples, hlatencies, hwritten, outcome, hplace⟩ :
      ∃ s, (runLatency Config.twoEvents).run
        (secondEvent ++ [.producer 1 0, .producer 1 0, .consumer 0 0, .consumer 2 0,
          .consumer 0 25, .consumer 0 0, .consumer 0 0, .producer 2 0, .producer 0 0])
        (State.init Config.twoEvents) = some s
      ∧ s.samples = [2, 5] ∧ s.latencies = [2, 5] ∧ s.stream.producer.written.length = 2
      ∧ ∃ outcome, s.producerPlace = .finished outcome := ⟨_, rfl, rfl, rfl, rfl, _, rfl⟩
  use s, ⟨_, hrun⟩, hsamples
  rcases (run_latency_exact ⟨_, hrun⟩).2.2.2 outcome hplace with ⟨-, hnil⟩
    | ⟨-, ⟨⟨latency, hlatency, hnot⟩, -⟩ | ⟨-, d, hreported, -, hok⟩⟩
  · rw [hnil] at hwritten
    cases hwritten
  · rw [hlatencies] at hlatency
    simp only [List.mem_cons, List.not_mem_nil, or_false] at hlatency
    rcases hlatency with rfl | rfl
    · cases hnot (by decide)
    · cases hnot (by decide)
  · use d
    rw [hlatencies] at hreported
    use hreported
    rw [hplace, hok]

end PairedLatency
