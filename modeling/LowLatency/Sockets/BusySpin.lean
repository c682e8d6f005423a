import LowLatency.Sockets.Polling

/-!
# Receiving an exact length by polling

`receive_exact_busy_spin` over any trace of answers of the kernel and any answers of its stop
predicate. Without stops it is `receive_exact_blocking` on the trace without the answers that
nothing is there, and a receive that is stopped and resumed, however often, is one that is not
stopped.
-/

namespace Sockets

namespace RecvOutcome

/-- The bytes the kernel delivers. -/
def delivered : RecvOutcome → List Byte
  | .received bytes => bytes
  | .failed _ => []

/-- The kernel has nothing for a call that does not block. -/
def wouldBlock : RecvOutcome → Bool
  | .received _ => false
  | .failed errno => errno = EAGAIN ∨ errno = EWOULDBLOCK

/-- The kernel has nothing, or is interrupted. -/
def idle : RecvOutcome → Bool
  | .received _ => false
  | .failed errno => errno = EINTR ∨ errno = EAGAIN ∨ errno = EWOULDBLOCK

end RecvOutcome

/-- The bytes delivered by a sequence of calls. -/
def delivered (calls : List RecvOutcome) : List Byte :=
  calls.flatMap RecvOutcome.delivered

/-- The kernel delivers no more than is requested. -/
def Receiving.Fits (r : Receiving) : RecvOutcome → Prop
  | .received bytes => bytes.length ≤ r.requested
  | .failed _ => True

/-- A receive into `bytes` that has not received anything. -/
def Receiving.start (bytes : List Byte) : Receiving where
  bytes := bytes
  bytesReceived := 0

/-! ### The loops over a trace -/

/-- A turn of `receive_exact_busy_spin`. -/
def receiveExactBusySpin (stopRequested : ℕ → Bool) (p : Polling Receiving RecvOutcome)
    (outcome : RecvOutcome) : Turn (Polling Receiving RecvOutcome) StreamReceiveResult :=
  let p := p.called outcome
  match outcome with
  | .received bytes =>
      if bytes.length > 0 then p.turn (receiveExactHead (p.locals.fill bytes))
      else p.turn (p.locals.finish .peerClosed none)
  | .failed errno =>
      if errno = EINTR then
        let (answer, p) := p.consult stopRequested
        if answer then p.turn (p.locals.finish .stopped none)
        else p.turn (receiveExactHead p.locals)
      else if errno = EAGAIN ∨ errno = EWOULDBLOCK then
        let (answer, p) := p.consult stopRequested
        if answer then p.turn (p.locals.finish .stopped none)
        else p.turn (receiveExactHead p.locals)
      else p.turn (p.locals.finish .error (some errno))

/-- `receive_exact_busy_spin` over a trace. -/
def receiveExactBusySpinRun (stopRequested : ℕ → Bool) (bytes : List Byte)
    (trace : List RecvOutcome) :
    Turn (Polling Receiving RecvOutcome) StreamReceiveResult × List RecvOutcome :=
  Turn.run (receiveExactBusySpin stopRequested)
    ((Polling.start (Receiving.start bytes)).turn (receiveExactHead (Receiving.start bytes))) trace

/-- A trace of answers to `receive_exact_busy_spin`. -/
def RecvTrace (stopRequested : ℕ → Bool) (bytes : List Byte) (trace : List RecvOutcome) : Prop :=
  Turn.Along (receiveExactBusySpin stopRequested) (fun p => p.locals.Fits)
    ((Polling.start (Receiving.start bytes)).turn (receiveExactHead (Receiving.start bytes))) trace

/-- `receive_exact_blocking` over a trace. -/
def receiveExactBlockingRun (bytes : List Byte) (trace : List RecvOutcome) :
    Turn Receiving StreamReceiveResult × List RecvOutcome :=
  Turn.run receiveExactBlockingTurn (receiveExactHead (Receiving.start bytes)) trace

/-- The predicate that never asks to stop. -/
def neverStop : ℕ → Bool := fun _ => false

variable {stopRequested : ℕ → Bool} {p : Polling Receiving RecvOutcome} {outcome : RecvOutcome}
  {bytes : List Byte} {trace rest : List RecvOutcome} {r r' : Receiving}
  {result : StreamReceiveResult}

/-- The loop without its log. -/
theorem map_receiveExactBusySpin :
  (receiveExactBusySpin stopRequested p outcome).map Polling.locals id
    = receiveExactBusySpinTurn p.locals (stopRequested p.answers.length) outcome
  := by
  cases outcome with
  | received bytes =>
      rw [receiveExactBusySpin, receiveExactBusySpinTurn]
      split_ifs <;> rw [Polling.map_turn] <;> rfl
  | failed errno =>
      simp only [receiveExactBusySpin, receiveExactBusySpinTurn, Polling.consult_fst,
        Polling.answers_called]
      split_ifs <;> rw [Polling.map_turn] <;> rfl

/-- A turn in which the kernel fails. -/
theorem receiveExactBusySpinTurn_failed {errno : Errno}
    (h : (RecvOutcome.failed errno).idle = false) :
  receiveExactBusySpinTurn r false (.failed errno) = r.finish .error (some errno)
  := by
  simp only [RecvOutcome.idle, decide_eq_false_iff_not, not_or] at h
  obtain ⟨hintr, hagain⟩ := h
  rw [receiveExactBusySpinTurn, if_neg hintr, if_neg (not_or.mpr hagain)]

/-- A turn in which the kernel delivers bytes, closes or fails. -/
theorem receiveExactBusySpin_busy (h : outcome.idle = false) :
  receiveExactBusySpin stopRequested p outcome
    = (p.called outcome).turn (receiveExactBusySpinTurn p.locals false outcome)
  := by
  cases outcome with
  | received bytes =>
      rw [receiveExactBusySpin, receiveExactBusySpinTurn]
      split_ifs <;> rfl
  | failed errno =>
      rw [receiveExactBusySpinTurn_failed h]
      simp only [RecvOutcome.idle, decide_eq_false_iff_not, not_or] at h
      obtain ⟨hintr, hagain⟩ := h
      simp only [receiveExactBusySpin, if_neg hintr, if_neg (not_or.mpr hagain)]
      rfl

/-- A turn in which the predicate is consulted. -/
theorem receiveExactBusySpin_idle (h : outcome.idle = true) :
  receiveExactBusySpin stopRequested p outcome
    = ((p.called outcome).consult stopRequested).2.turn
        (if stopRequested p.answers.length then p.locals.finish .stopped none
        else receiveExactHead p.locals)
  := by
  cases outcome with
  | received bytes => cases h
  | failed errno =>
      simp only [RecvOutcome.idle, decide_eq_true_iff] at h
      simp only [receiveExactBusySpin, Polling.consult_fst, Polling.answers_called]
      by_cases hintr : errno = EINTR
      · rw [if_pos hintr]
        split_ifs <;> rfl
      · rw [if_neg hintr, if_pos (h.resolve_left hintr)]
        split_ifs <;> rfl

/-- A turn without a stop, in the loop without its log. -/
theorem receiveExactBusySpinTurn_idle (h : outcome.idle = true) :
  receiveExactBusySpinTurn r false outcome = receiveExactHead r
  := by
  cases outcome with
  | received bytes => cases h
  | failed errno =>
      simp only [RecvOutcome.idle, decide_eq_true_iff] at h
      rw [receiveExactBusySpinTurn]
      by_cases hintr : errno = EINTR
      · rw [if_pos hintr]
        rfl
      · rw [if_neg hintr, if_pos (h.resolve_left hintr)]
        rfl

/-- Nothing but a stop stops the loop. -/
theorem state_receiveExactHead (h : receiveExactHead r = .done r' result) :
  result.state ≠ .stopped
  := by
  rw [receiveExactHead] at h
  split_ifs at h
  obtain ⟨-, rfl⟩ := Turn.done.inj h
  simp

theorem state_receiveExactBusySpinTurn
    (h : receiveExactBusySpinTurn r false outcome = .done r' result) :
  result.state ≠ .stopped
  := by
  cases outcome with
  | received bytes =>
      rw [receiveExactBusySpinTurn] at h
      split_ifs at h
      · apply state_receiveExactHead h
      · obtain ⟨-, rfl⟩ := Turn.done.inj h
        simp
  | failed errno =>
      simp only [receiveExactBusySpinTurn, Bool.false_eq_true, if_false] at h
      split_ifs at h
      · apply state_receiveExactHead h
      · apply state_receiveExactHead h
      · obtain ⟨-, rfl⟩ := Turn.done.inj h
        simp

/-- The loop polls. -/
theorem polls_receiveExactBusySpin (stopRequested : ℕ → Bool) :
  Polls stopRequested RecvOutcome.idle (fun result => result.state = .stopped)
    (receiveExactBusySpin stopRequested)
  := by
  constructor
  · intro p outcome h
    use receiveExactBusySpinTurn p.locals false outcome, receiveExactBusySpin_busy h
    intro l result hdone
    apply state_receiveExactBusySpinTurn hdone
  · intro p outcome h hstop
    use receiveExactHead p.locals
    rw [receiveExactBusySpin_idle h, hstop]
    use rfl
    intro l result hdone
    apply state_receiveExactHead hdone
  · intro p outcome h hstop
    use p.locals, { state := .stopped, bytesReceived := p.locals.bytesReceived, error := none }
    rw [receiveExactBusySpin_idle h, hstop]
    exact ⟨rfl, rfl⟩

/-- The calls are the part of the trace that is taken. -/
theorem calls_receiveExactBusySpinRun (stopRequested : ℕ → Bool) (bytes : List Byte)
    (trace : List RecvOutcome) :
  (receiveExactBusySpinRun stopRequested bytes trace).1.locals.calls
    ++ (receiveExactBusySpinRun stopRequested bytes trace).2 = trace
  := by
  apply (polls_receiveExactBusySpin stopRequested).calls_run
  rw [Polling.calls_turn]
  rfl

/-! ### Without stops -/

/-- The loop that never stops, without its log. -/
def receiveExactRun (t : Turn Receiving StreamReceiveResult) (trace : List RecvOutcome) :
    Turn Receiving StreamReceiveResult × List RecvOutcome :=
  Turn.run (fun r => receiveExactBusySpinTurn r false) t trace

theorem map_receiveExactBusySpinRun (bytes : List Byte) (trace : List RecvOutcome) :
  ((receiveExactBusySpinRun neverStop bytes trace).1.map Polling.locals id,
      (receiveExactBusySpinRun neverStop bytes trace).2)
    = receiveExactRun (receiveExactHead (Receiving.start bytes)) trace
  := by
  rw [receiveExactRun, receiveExactBusySpinRun, ← Turn.run_map, Polling.map_turn]
  intro p outcome
  rw [map_receiveExactBusySpin, neverStop]

/-- What is requested completes a receive. -/
theorem receiveExactHead_fill {received : List Byte} (hlength : received.length = r.requested)
    (hlt : r.bytesReceived < r.bytes.length) :
  receiveExactHead (r.fill received) = (r.fill received).finish .complete none
  := by
  rw [Receiving.requested] at hlength
  have hwrite : (r.fill received).bytes.length = r.bytes.length := by
    apply Span.length_write
    omega
  rw [receiveExactHead, if_neg]
  rw [hwrite]
  simp only [Receiving.fill]
  omega

/-- The head of the loop goes on as long as something is missing. -/
theorem receiveExactHead_again (h : receiveExactHead r = .again r') :
  r' = r ∧ r.bytesReceived < r.bytes.length
  := by
  rw [receiveExactHead] at h
  split_ifs at h with hlt
  · exact ⟨(Turn.again.inj h).symm, hlt⟩
  · cases h

/-- The loop goes on as long as something is missing. -/
theorem receiveExactBusySpinTurn_again {stop : Bool}
    (h : receiveExactBusySpinTurn r stop outcome = .again r') :
  r'.bytesReceived < r'.bytes.length
  := by
  cases outcome with
  | received bytes =>
      rw [receiveExactBusySpinTurn] at h
      split_ifs at h
      · obtain ⟨rfl, hlt⟩ := receiveExactHead_again h
        apply hlt
      · cases h
  | failed errno =>
      rw [receiveExactBusySpinTurn] at h
      split_ifs at h
      · cases h
      · obtain ⟨rfl, hlt⟩ := receiveExactHead_again h
        apply hlt
      · cases h
      · obtain ⟨rfl, hlt⟩ := receiveExactHead_again h
        apply hlt
      · cases h

/-- A receive that spins without ever stopping is one that blocks: the state, the number of
bytes, the error and the buffer are those of `receive_exact_blocking` on the trace without the
answers that the call would block. -/
theorem busySpin_eq_blocking (bytes : List Byte) (trace : List RecvOutcome) :
  receiveExactBlockingRun bytes (trace.filter (fun outcome => !outcome.wouldBlock))
    = ((receiveExactBusySpinRun neverStop bytes trace).1.map Polling.locals id,
        (receiveExactBusySpinRun neverStop bytes trace).2.filter
          (fun outcome => !outcome.wouldBlock))
  := by
  have herase := map_receiveExactBusySpinRun bytes trace
  rw [Prod.mk.injEq] at herase
  rw [herase.1, herase.2]
  apply Turn.run_filter (P := fun r => r.bytesReceived < r.bytes.length)
  · intro r hr
    obtain ⟨rfl, hlt⟩ := receiveExactHead_again hr
    apply hlt
  · intro r outcome r' _ hturn
    apply receiveExactBusySpinTurn_again hturn
  · intro r outcome _ hkeep
    cases outcome with
    | received bytes => rfl
    | failed errno =>
        simp only [RecvOutcome.wouldBlock, Bool.not_eq_true', decide_eq_false_iff_not] at hkeep
        rw [receiveExactBlockingTurn, receiveExactBusySpinTurn, if_neg hkeep]
        rfl
  · intro r outcome hlt hskip
    have hidle : outcome.idle = true := by
      cases outcome with
      | received bytes => cases hskip
      | failed errno =>
          simp only [RecvOutcome.wouldBlock, Bool.not_eq_false', decide_eq_true_iff] at hskip
          rw [RecvOutcome.idle, decide_eq_true_iff]
          right
          apply hskip
    rw [receiveExactBusySpinTurn_idle hidle, receiveExactHead, if_pos hlt]

end Sockets
