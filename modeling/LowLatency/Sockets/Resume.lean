import LowLatency.Sockets.BusySpin

/-!
# Stopping and resuming a receive

What one call of `receive_exact_busy_spin` leaves in its buffer, and what a sequence of calls
leaves, each on the part of the buffer that the one before it has not filled.
-/

namespace Sockets

/-- Calls of `receive_exact_busy_spin`, one for each predicate, until one is not stopped. Each
continues on `subspan(bytes_received)` with the rest of the trace. What is left is the buffer,
the result with the bytes received in all, and the rest of the trace. -/
def receiveExactResumed :
    List (ℕ → Bool) → List Byte → List RecvOutcome →
      Option (List Byte × StreamReceiveResult × List RecvOutcome)
  | [], _, _ => none
  | stopRequested :: calls, bytes, trace =>
      match receiveExactBusySpinRun stopRequested bytes trace with
      | (.again _, _) => none
      | (.done p result, rest) =>
          if result.state = .stopped then
            (receiveExactResumed calls (p.locals.bytes.drop result.bytesReceived) rest).map
              fun (buffer, total, rest) =>
                (p.locals.bytes.take result.bytesReceived ++ buffer,
                  { total with bytesReceived := result.bytesReceived + total.bytesReceived },
                  rest)
          else some (p.locals.bytes, result, rest)

variable {stopRequested : ℕ → Bool} {p : Polling Receiving RecvOutcome} {outcome : RecvOutcome}
  {bytes before buffer : List Byte} {trace rest : List RecvOutcome} {r : Receiving}
  {result : StreamReceiveResult}

/-! ### One call -/

/-- The buffer holds what was delivered, in front of what it held. -/
structure Filled (bytes : List Byte) (p : Polling Receiving RecvOutcome) : Prop where
  delivered : (delivered p.calls).length = p.locals.bytesReceived
  buffer : p.locals.bytes = Sockets.delivered p.calls ++ bytes.drop p.locals.bytesReceived
  bytesReceived_le : p.locals.bytesReceived ≤ bytes.length

/-- What holds after any turn of a receive into `bytes`. -/
structure Received (bytes : List Byte)
    (t : Turn (Polling Receiving RecvOutcome) StreamReceiveResult) : Prop
    extends Filled bytes t.locals where
  again : ∀ p, t = .again p → p.locals.bytesReceived < bytes.length
  done : ∀ p result, t = .done p result → result.bytesReceived = p.locals.bytesReceived
    ∧ (result.state = .complete ↔ result.bytesReceived = bytes.length)
    ∧ (result.error ≠ none ↔ result.state = .error)

namespace Filled

/-- The span keeps its length. -/
theorem length (h : Filled bytes p) :
  p.locals.bytes.length = bytes.length
  := by
  have := h.bytesReceived_le
  rw [h.buffer, List.length_append, h.delivered, List.length_drop]
  omega

/-- A call may deliver nothing. -/
theorem called (h : Filled bytes p) (houtcome : outcome.delivered = []) :
  Filled bytes (p.called outcome)
  := by
  have hdelivered : Sockets.delivered (p.called outcome).calls = Sockets.delivered p.calls := by
    simp [Sockets.delivered, houtcome]
  constructor
  · rw [hdelivered]
    apply h.delivered
  · rw [hdelivered]
    apply h.buffer
  · apply h.bytesReceived_le

/-- A consultation delivers nothing. -/
theorem consult (h : Filled bytes p) :
  Filled bytes (p.consult stopRequested).2
  := by
  constructor
  · rw [Polling.calls_consult]
    apply h.delivered
  · rw [Polling.calls_consult]
    apply h.buffer
  · apply h.bytesReceived_le

/-- What the kernel delivers is filled in. -/
theorem fill {received : List Byte} (h : Filled bytes p)
    (hfits : received.length ≤ p.locals.requested) :
  Filled bytes { p.called (.received received) with locals := p.locals.fill received }
  := by
  have hlength := h.length
  have hle := h.bytesReceived_le
  rw [Receiving.requested] at hfits
  have hdelivered : Sockets.delivered (p.called (.received received)).calls
      = Sockets.delivered p.calls ++ received := by
    simp [Sockets.delivered, RecvOutcome.delivered]
  constructor
  · change (Sockets.delivered (p.called (.received received)).calls).length = _
    rw [hdelivered, List.length_append, h.delivered]
    rfl
  · change _ = Sockets.delivered (p.called (.received received)).calls ++ _
    rw [hdelivered]
    simp only [Receiving.fill, Span.write]
    rw [h.buffer, List.take_left' h.delivered, ← List.drop_drop, List.drop_left' h.delivered,
      List.drop_drop]
  · simp only [Receiving.fill]
    omega

/-- The head of the loop returns when the span is full. -/
theorem head (h : Filled bytes p) :
  Received bytes (p.turn (receiveExactHead p.locals))
  := by
  have hlength := h.length
  have hle := h.bytesReceived_le
  rw [receiveExactHead]
  split_ifs with hlt
  · constructor
    · apply h
    · intro p' hp'
      obtain rfl := Turn.again.inj hp'
      rw [← hlength]
      apply hlt
    · intro p' result hp'
      cases hp'
  · constructor
    · apply h
    · intro p' hp'
      cases hp'
    · intro p' result hp'
      obtain ⟨rfl, rfl⟩ := Turn.done.inj hp'
      refine ⟨rfl, ?_, ?_⟩
      · simp only [id_eq, true_iff]
        omega
      · simp

/-- The return of a receive that is not complete. -/
theorem finish (h : Filled bytes p) (hlt : p.locals.bytesReceived < bytes.length)
    {state : StreamReceiveState} {error : Option Errno} (hstate : state ≠ .complete)
    (herror : error ≠ none ↔ state = .error) :
  Received bytes (p.turn (p.locals.finish state error))
  := by
  constructor
  · apply h
  · intro p' hp'
    cases hp'
  · intro p' result hp'
    obtain ⟨rfl, rfl⟩ := Turn.done.inj hp'
    refine ⟨rfl, ?_, herror⟩
    constructor
    · intro hcomplete
      cases hstate hcomplete
    · intro hfull
      simp only [id_eq] at hfull
      omega

end Filled

/-- A turn of a receive. -/
theorem Received.turn (h : Received bytes (.again p)) (hfits : p.locals.Fits outcome) :
  Received bytes (receiveExactBusySpin stopRequested p outcome)
  := by
  have hfilled : Filled bytes p := h.toFilled
  have hlt := h.again p rfl
  cases hidle : outcome.idle with
  | true =>
      have hcalled : Filled bytes ((p.called outcome).consult stopRequested).2 := by
        apply (hfilled.called _).consult
        cases outcome with
        | received received => cases hidle
        | failed errno => rfl
      rw [receiveExactBusySpin_idle hidle]
      split_ifs
      · apply hcalled.finish hlt
        · simp
        · simp
      · apply hcalled.head
  | false =>
      rw [receiveExactBusySpin_busy hidle]
      cases outcome with
      | received received =>
          rw [receiveExactBusySpinTurn]
          split_ifs with hpos
          · apply (hfilled.fill hfits).head
          · apply (hfilled.called _).finish hlt
            · simp
            · simp
            · apply List.eq_nil_of_length_eq_zero
              rw [RecvOutcome.delivered]
              omega
      | failed errno =>
          rw [receiveExactBusySpinTurn_failed hidle]
          apply (hfilled.called rfl).finish hlt
          · simp
          · simp

theorem received_start :
  Received bytes
    ((Polling.start (Receiving.start bytes)).turn (receiveExactHead (Receiving.start bytes)))
  := by
  apply Filled.head
  constructor
  · rfl
  · rfl
  · apply Nat.zero_le

theorem RecvTrace.received (htrace : RecvTrace stopRequested bytes trace) :
  Received bytes (receiveExactBusySpinRun stopRequested bytes trace).1
  := by
  apply Turn.run_invariant_along htrace received_start
  intro p outcome hp hfits
  apply hp.turn hfits

/-! ### A call as a part of one that does not stop -/

/-- A turn `t` of a receive, with `rest` left of the trace, agrees with a receive that never
stops from `t₀` over `trace`. -/
structure Agrees (t₀ : Turn Receiving StreamReceiveResult) (trace : List RecvOutcome)
    (t : Turn (Polling Receiving RecvOutcome) StreamReceiveResult) (rest : List RecvOutcome) :
    Prop where
  again : ∀ p, t = .again p → p.locals.bytesReceived < p.locals.bytes.length
    ∧ receiveExactRun t₀ trace = receiveExactRun (.again p.locals) rest
  stopped : ∀ p result, t = .done p result → result.state = .stopped →
    p.locals.bytesReceived < p.locals.bytes.length
      ∧ result.bytesReceived = p.locals.bytesReceived
      ∧ receiveExactRun t₀ trace = receiveExactRun (.again p.locals) rest
  done : ∀ p result, t = .done p result → result.state ≠ .stopped →
    receiveExactRun t₀ trace = (.done p.locals result, rest)

section Agreement

variable {t₀ : Turn Receiving StreamReceiveResult} {t : Turn Receiving StreamReceiveResult}

/-- A turn that is not a stop agrees. -/
theorem agrees_turn (hrun : receiveExactRun t₀ trace = receiveExactRun t rest)
    (hagain : ∀ r, t = .again r → r.bytesReceived < r.bytes.length)
    (hdone : ∀ r result, t = .done r result → result.state ≠ .stopped) :
  Agrees t₀ trace (p.turn t) rest
  := by
  cases t with
  | again r =>
      constructor
      · intro p' hp'
        obtain rfl := Turn.again.inj hp'
        exact ⟨hagain r rfl, hrun⟩
      · intro p' result hp'
        cases hp'
      · intro p' result hp'
        cases hp'
  | done r result =>
      constructor
      · intro p' hp'
        cases hp'
      · intro p' result' hp' hstopped
        obtain ⟨rfl, rfl⟩ := Turn.done.inj hp'
        cases hdone r result rfl hstopped
      · intro p' result' hp' _
        obtain ⟨rfl, rfl⟩ := Turn.done.inj hp'
        rw [hrun, receiveExactRun, Turn.run_done]
        rfl

theorem agrees_start (bytes : List Byte) (trace : List RecvOutcome) :
  Agrees (receiveExactHead (Receiving.start bytes)) trace
    ((Polling.start (Receiving.start bytes)).turn (receiveExactHead (Receiving.start bytes))) trace
  := by
  apply agrees_turn rfl
  · intro r hr
    obtain ⟨rfl, hlt⟩ := receiveExactHead_again hr
    apply hlt
  · intro r result hr
    apply state_receiveExactHead hr

theorem Agrees.turn (h : Agrees t₀ trace (.again p) (outcome :: rest)) :
  Agrees t₀ trace (receiveExactBusySpin stopRequested p outcome) rest
  := by
  obtain ⟨hlt, hrun⟩ := h.again p rfl
  rw [receiveExactRun, receiveExactRun, Turn.run_again_cons, ← receiveExactRun,
    ← receiveExactRun] at hrun
  cases hidle : outcome.idle with
  | false =>
      rw [receiveExactBusySpin_busy hidle]
      apply agrees_turn hrun
      · intro r hr
        apply receiveExactBusySpinTurn_again hr
      · intro r result hr
        apply state_receiveExactBusySpinTurn hr
  | true =>
      have hhead : receiveExactHead p.locals = .again p.locals := by
        rw [receiveExactHead, if_pos hlt]
      rw [receiveExactBusySpinTurn_idle hidle, hhead] at hrun
      rw [receiveExactBusySpin_idle hidle, hhead]
      split_ifs
      · constructor
        · intro p' hp'
          cases hp'
        · intro p' result hp' _
          obtain ⟨rfl, rfl⟩ := Turn.done.inj hp'
          exact ⟨hlt, rfl, hrun⟩
        · intro p' result hp' hstopped
          obtain ⟨rfl, rfl⟩ := Turn.done.inj hp'
          cases hstopped rfl
      · apply agrees_turn hrun
        · intro r hr
          obtain rfl := Turn.again.inj hr
          apply hlt
        · intro r result hr
          cases hr

theorem agrees_run (stopRequested : ℕ → Bool) (bytes : List Byte) (trace : List RecvOutcome) :
  Agrees (receiveExactHead (Receiving.start bytes)) trace
    (receiveExactBusySpinRun stopRequested bytes trace).1
    (receiveExactBusySpinRun stopRequested bytes trace).2
  := by
  apply Turn.run_invariant (agrees_start bytes trace)
  intro p outcome rest hp
  apply hp.turn

end Agreement

/-! ### A call on the rest of a buffer -/

/-- A receive into the part of a buffer after `before`, as one into the whole buffer. -/
def Receiving.after (before : List Byte) (r : Receiving) : Receiving where
  bytes := before ++ r.bytes
  bytesReceived := before.length + r.bytesReceived

/-- A result with the bytes that were received before. -/
def StreamReceiveResult.after (count : ℕ) (result : StreamReceiveResult) : StreamReceiveResult :=
  { result with bytesReceived := count + result.bytesReceived }

theorem receiveExactHead_after (before : List Byte) (r : Receiving) :
  receiveExactHead (r.after before)
    = (receiveExactHead r).map (Receiving.after before) (StreamReceiveResult.after before.length)
  := by
  simp only [receiveExactHead, Receiving.after, List.length_append, Nat.add_lt_add_iff_left]
  split_ifs <;> rfl

theorem fill_after (received : List Byte) :
  (r.after before).fill received = (r.fill received).after before
  := by
  simp only [Receiving.fill, Receiving.after, Span.write, List.take_length_add_append,
    List.append_assoc, Nat.add_assoc, List.drop_length_add_append]

theorem receiveExactBusySpinTurn_after {stop : Bool} :
  receiveExactBusySpinTurn (r.after before) stop outcome
    = (receiveExactBusySpinTurn r stop outcome).map (Receiving.after before)
        (StreamReceiveResult.after before.length)
  := by
  cases outcome with
  | received received =>
      simp only [receiveExactBusySpinTurn, fill_after, receiveExactHead_after]
      split_ifs <;> rfl
  | failed errno =>
      simp only [receiveExactBusySpinTurn, receiveExactHead_after]
      split_ifs <;> rfl

theorem receiveExactRun_after (before : List Byte) (t : Turn Receiving StreamReceiveResult)
    (trace : List RecvOutcome) :
  receiveExactRun (t.map (Receiving.after before) (StreamReceiveResult.after before.length)) trace
    = ((receiveExactRun t trace).1.map (Receiving.after before)
        (StreamReceiveResult.after before.length), (receiveExactRun t trace).2)
  := by
  apply Turn.run_map
  intro r outcome
  apply receiveExactBusySpinTurn_after

/-! ### Any number of calls -/

/-- After a stop, what is left to do is a call on the rest of the buffer. -/
theorem Agrees.resume {t₀ : Turn Receiving StreamReceiveResult}
    (h : Agrees t₀ trace (.done p result) rest) (hstopped : result.state = .stopped) :
  receiveExactRun t₀ trace
    = ((receiveExactRun (receiveExactHead
          (Receiving.start (p.locals.bytes.drop result.bytesReceived))) rest).1.map
        (Receiving.after (p.locals.bytes.take result.bytesReceived))
        (StreamReceiveResult.after result.bytesReceived),
      (receiveExactRun (receiveExactHead
        (Receiving.start (p.locals.bytes.drop result.bytesReceived))) rest).2)
  := by
  obtain ⟨hlt, hbytes, hrun⟩ := h.stopped p result rfl hstopped
  have hlength : (p.locals.bytes.take result.bytesReceived).length = result.bytesReceived := by
    rw [List.length_take]
    omega
  have hlocals : (Receiving.start (p.locals.bytes.drop result.bytesReceived)).after
      (p.locals.bytes.take result.bytesReceived) = p.locals := by
    rw [Receiving.after, Receiving.start, hlength, List.take_append_drop, Nat.add_zero, hbytes]
  have hmap := receiveExactRun_after (p.locals.bytes.take result.bytesReceived)
    (receiveExactHead (Receiving.start (p.locals.bytes.drop result.bytesReceived))) rest
  rw [hlength] at hmap
  rw [← hmap, hrun]
  congr 1
  have hhead := receiveExactHead_after (p.locals.bytes.take result.bytesReceived)
    (Receiving.start (p.locals.bytes.drop result.bytesReceived))
  rw [hlength, hlocals, receiveExactHead, if_pos hlt] at hhead
  apply hhead

/-- What any number of calls do, one that never stops does. -/
theorem receiveExactRun_of_resumed {calls : List (ℕ → Bool)}
    (h : receiveExactResumed calls bytes trace = some (buffer, result, rest)) :
  ∃ r, receiveExactRun (receiveExactHead (Receiving.start bytes)) trace = (.done r result, rest)
    ∧ r.bytes = buffer
  := by
  induction calls generalizing bytes trace buffer result with
  | nil => cases h
  | cons stopRequested calls ih =>
      have hagrees := agrees_run stopRequested bytes trace
      rw [receiveExactResumed] at h
      split at h
      case h_1 => cases h
      case h_2 p result₁ rest₁ hcall =>
        rw [hcall] at hagrees
        split_ifs at h with hstopped
        · obtain ⟨⟨buffer₁, total₁, rest₂⟩, hresumed, heq⟩ := Option.map_eq_some_iff.mp h
          obtain ⟨rfl, rfl, rfl⟩ := heq
          obtain ⟨r, hrun, rfl⟩ := ih hresumed
          use r.after (p.locals.bytes.take result₁.bytesReceived)
          rw [hagrees.resume hstopped, hrun]
          exact ⟨rfl, rfl⟩
        · obtain ⟨rfl, rfl, rfl⟩ := Option.some.inj h
          use p.locals
          exact ⟨hagrees.done p _ rfl hstopped, rfl⟩

/-- A call that has returned took part of the trace or had nothing to do. -/
theorem length_of_stopped (hcall : receiveExactBusySpinRun stopRequested bytes trace
      = (.done p result, rest)) (hstopped : result.state = .stopped) :
  rest.length < trace.length
  := by
  rw [receiveExactBusySpinRun] at hcall
  cases hhead : receiveExactHead (Receiving.start bytes) with
  | again r =>
      rw [hhead, Polling.turn, Turn.map] at hcall
      obtain ⟨before, outcome, l₀, rfl, -⟩ := Turn.exists_of_run_done hcall
      rw [List.length_append, List.length_cons]
      omega
  | done r result₁ =>
      rw [hhead, Polling.turn, Turn.map, Turn.run_done] at hcall
      obtain ⟨⟨rfl, rfl⟩, rfl⟩ := hcall
      cases state_receiveExactHead hhead hstopped

/-- What a call that never stops does, enough calls do. -/
theorem resumed_of_receiveExactRun {calls : List (ℕ → Bool)}
    (hcalls : trace.length < calls.length)
    (h : receiveExactRun (receiveExactHead (Receiving.start bytes)) trace
      = (.done r result, rest)) :
  receiveExactResumed calls bytes trace = some (r.bytes, result, rest)
  := by
  induction calls generalizing bytes trace r result with
  | nil => cases hcalls
  | cons stopRequested calls ih =>
      have hagrees := agrees_run stopRequested bytes trace
      rw [receiveExactResumed]
      split
      case h_1 p rest₁ hcall =>
        rw [hcall] at hagrees
        have hrest : rest₁ = [] := Turn.run_again_snd hcall
        obtain ⟨-, hrun⟩ := hagrees.again p rfl
        rw [h, hrest, receiveExactRun, Turn.run_nil] at hrun
        cases hrun
      case h_2 p result₁ rest₁ hcall =>
        rw [hcall] at hagrees
        split_ifs with hstopped
        · have hlength := length_of_stopped hcall hstopped
          have hresume := hagrees.resume hstopped
          rw [h] at hresume
          obtain ⟨hturn, rfl⟩ := Prod.mk.inj hresume
          cases hleft : (receiveExactRun (receiveExactHead
              (Receiving.start (p.locals.bytes.drop result₁.bytesReceived))) rest₁).1 with
          | again r₁ =>
              rw [hleft] at hturn
              cases hturn
          | done r₁ total₁ =>
              rw [hleft] at hturn
              obtain ⟨rfl, rfl⟩ := Turn.done.inj hturn
              rw [ih (by rw [List.length_cons] at hcalls; omega) (Prod.ext hleft rfl)]
              rfl
        · have hrun := hagrees.done p result₁ rfl hstopped
          rw [h] at hrun
          obtain ⟨⟨rfl, rfl⟩, rfl⟩ := hrun
          rfl

/-- Stopping and resuming an exact receive is lossless. When a call returns, the first
`bytes_received` bytes of its buffer are those delivered by the calls of the kernel, in order,
the rest is as it was, the state is `complete` exactly when nothing is missing, and there is an
error exactly when the state says so. Calls that continue each other until one is not stopped
leave the buffer, the count in all, the state and the error of one call that never stops, and
enough calls always get there. -/
theorem stop_resume_lossless (bytes : List Byte) (trace : List RecvOutcome) :
  (∀ stopRequested p result rest, RecvTrace stopRequested bytes trace →
      receiveExactBusySpinRun stopRequested bytes trace = (.done p result, rest) →
      p.calls ++ rest = trace
        ∧ result.bytesReceived ≤ bytes.length
        ∧ p.locals.bytes.take result.bytesReceived = delivered p.calls
        ∧ p.locals.bytes.drop result.bytesReceived = bytes.drop result.bytesReceived
        ∧ (result.state = .complete ↔ result.bytesReceived = bytes.length)
        ∧ (result.error ≠ none ↔ result.state = .error))
    ∧ (∀ calls buffer result rest,
        receiveExactResumed calls bytes trace = some (buffer, result, rest) →
        ∃ p, receiveExactBusySpinRun neverStop bytes trace = (.done p result, rest)
          ∧ p.locals.bytes = buffer)
    ∧ (∀ calls p result rest, trace.length < calls.length →
        receiveExactBusySpinRun neverStop bytes trace = (.done p result, rest) →
        receiveExactResumed calls bytes trace = some (p.locals.bytes, result, rest))
  := by
  have herase := map_receiveExactBusySpinRun bytes trace
  refine ⟨?_, ?_, ?_⟩
  · intro stopRequested p result rest htrace hrun
    have hcalls : p.calls ++ rest = trace := by
      have htaken := calls_receiveExactBusySpinRun stopRequested bytes trace
      rw [hrun] at htaken
      apply htaken
    have hreceived := htrace.received
    rw [hrun] at hreceived
    obtain ⟨hbytes, hcomplete, herror⟩ := hreceived.done p result rfl
    have hfilled : Filled bytes p := hreceived.toFilled
    rw [hbytes]
    refine ⟨hcalls, hfilled.bytesReceived_le, ?_, ?_, ?_, herror⟩
    · rw [hfilled.buffer, List.take_left' hfilled.delivered]
    · rw [hfilled.buffer, List.drop_left' hfilled.delivered]
    · rw [← hbytes]
      apply hcomplete
  · intro calls buffer result rest hresumed
    obtain ⟨r, hrun, rfl⟩ := receiveExactRun_of_resumed hresumed
    rw [← herase] at hrun
    obtain ⟨hturn, hrest⟩ := Prod.mk.inj hrun
    cases hleft : (receiveExactBusySpinRun neverStop bytes trace).1 with
    | again p =>
        rw [hleft] at hturn
        cases hturn
    | done p result' =>
        rw [hleft] at hturn
        obtain ⟨rfl, rfl⟩ := Turn.done.inj hturn
        use p, Prod.ext hleft hrest
  · intro calls p result rest hcalls hrun
    apply resumed_of_receiveExactRun (r := p.locals) hcalls
    rw [← herase, hrun]
    rfl

/-- A receive of three bytes that is stopped after the first one, when nothing is there, and
resumed. -/
def resumedOnce : List RecvOutcome :=
  [.received [1], .failed EAGAIN, .failed EINTR, .received [2, 3]]

theorem stop_resume_lossless_resumedOnce :
  (∃ p result rest, receiveExactBusySpinRun (fun _ => true) [0, 0, 0] resumedOnce
      = (.done p result, rest)
    ∧ p.locals.bytes.take result.bytesReceived = delivered p.calls)
    ∧ (∃ p, receiveExactBusySpinRun neverStop [0, 0, 0] resumedOnce
      = (.done p { state := .complete, bytesReceived := 3, error := none }, [])
      ∧ p.locals.bytes = [1, 2, 3])
    ∧ receiveExactResumed (List.replicate 5 neverStop) [0, 0, 0] resumedOnce
      = some ([1, 2, 3], { state := .complete, bytesReceived := 3, error := none }, [])
  := by
  have htrace : RecvTrace (fun _ => true) [0, 0, 0] resumedOnce := by
    refine ⟨?_, trivial, trivial⟩
    apply Nat.le_add_left 1
  obtain ⟨hcall, hresumed, hnever⟩ := stop_resume_lossless [0, 0, 0] resumedOnce
  refine ⟨⟨_, _, _, rfl, ?_⟩, ?_, ?_⟩
  · apply (hcall _ _ _ _ htrace rfl).2.2.1
  · apply hresumed [fun _ => true, neverStop] _ _ _ rfl
  · apply hnever _ _ _ _ _ rfl
    apply Nat.lt_succ_self

end Sockets
