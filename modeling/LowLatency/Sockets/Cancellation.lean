import LowLatency.Sockets.Resume
import LowLatency.Sockets.Datagram

/-!
# Cooperative cancellation

The two spinning receives make a bounded number of calls of the kernel once their predicate
asks them to stop, and a stop never takes the place of bytes or of a datagram.
-/

namespace Sockets

variable {stopRequested : ℕ → Bool} {bytes buffer : List Byte}

/-! ### Streams -/

theorem cooperative_receiveExactBusySpinRun (stopRequested : ℕ → Bool) (bytes : List Byte)
    (trace : List RecvOutcome) :
  Cooperative stopRequested RecvOutcome.idle (fun result => result.state = .stopped)
    (receiveExactBusySpinRun stopRequested bytes trace).1
  := by
  apply Cooperative.run (polls_receiveExactBusySpin stopRequested)
  apply cooperative_start
  intro r result hdone
  apply state_receiveExactHead hdone

section Stream

variable {p : Polling Receiving RecvOutcome} {outcome : RecvOutcome} {trace : List RecvOutcome}

/-- Every call of the kernel has delivered a byte or been followed by a consultation, the last
one of a receive that has returned apart. -/
structure Spent (size : ℕ) (t : Turn (Polling Receiving RecvOutcome) StreamReceiveResult) :
    Prop where
  calls_le : t.locals.calls.length ≤ size + t.locals.answers.length
  again : ∀ p, t = .again p → p.calls.length ≤ p.locals.bytesReceived + p.answers.length

theorem spent_turn {size : ℕ} {t : Turn Receiving StreamReceiveResult}
    (hcalls : p.calls.length ≤ size + p.answers.length)
    (hagain : ∀ r, t = .again r → p.calls.length ≤ r.bytesReceived + p.answers.length) :
  Spent size (p.turn t)
  := by
  constructor
  · rw [Polling.calls_turn, Polling.answers_turn]
    apply hcalls
  · intro p' hp'
    cases t with
    | again r =>
        obtain rfl := Turn.again.inj hp'
        apply hagain r rfl
    | done r result => cases hp'

theorem Spent.turn (h : Spent bytes.length (.again p)) (hp : Received bytes (.again p))
    (hfits : p.locals.Fits outcome) :
  Spent bytes.length (receiveExactBusySpin stopRequested p outcome)
  := by
  have hlt := hp.again p rfl
  have hcalls := h.again p rfl
  cases hidle : outcome.idle with
  | true =>
      rw [receiveExactBusySpin_idle hidle]
      apply spent_turn
      · simp only [Polling.calls_consult, Polling.answers_consult, Polling.calls_called,
          Polling.answers_called, List.length_append, List.length_singleton]
        omega
      · intro r hr
        split_ifs at hr
        · cases hr
        · obtain ⟨rfl, -⟩ := receiveExactHead_again hr
          simp only [Polling.calls_consult, Polling.answers_consult, Polling.calls_called,
            Polling.answers_called, List.length_append, List.length_singleton]
          omega
  | false =>
      rw [receiveExactBusySpin_busy hidle]
      apply spent_turn
      · simp only [Polling.calls_called, Polling.answers_called, List.length_append,
          List.length_singleton]
        omega
      · intro r hr
        simp only [Polling.calls_called, Polling.answers_called, List.length_append,
          List.length_singleton]
        cases outcome with
        | failed errno =>
            rw [receiveExactBusySpinTurn_failed hidle] at hr
            cases hr
        | received received =>
            rw [receiveExactBusySpinTurn] at hr
            split_ifs at hr with hpos
            · obtain ⟨rfl, -⟩ := receiveExactHead_again hr
              simp only [Receiving.fill]
              omega
            · cases hr

theorem RecvTrace.spent (htrace : RecvTrace stopRequested bytes trace) :
  Spent bytes.length (receiveExactBusySpinRun stopRequested bytes trace).1
  := by
  have hboth : Received bytes (receiveExactBusySpinRun stopRequested bytes trace).1
      ∧ Spent bytes.length (receiveExactBusySpinRun stopRequested bytes trace).1 := by
    apply Turn.run_invariant_along (P := fun t => Received bytes t ∧ Spent bytes.length t) htrace
    · constructor
      · apply received_start
      · apply spent_turn
        · apply Nat.zero_le
        · intro r _
          apply Nat.zero_le
    · rintro p outcome ⟨hreceived, hspent⟩ hfits
      use hreceived.turn hfits
      apply hspent.turn hreceived hfits
  apply hboth.2

variable {N : ℕ} {t : Turn (Polling Receiving RecvOutcome) StreamReceiveResult}
  {rest : List RecvOutcome}

/-- A receive of a stream calls the kernel once for each byte and each consultation at most. -/
theorem RecvTrace.calls_le (htrace : RecvTrace stopRequested bytes trace)
    (hrun : receiveExactBusySpinRun stopRequested bytes trace = (t, rest)) (hN : 1 ≤ N)
    (hstop : stopRequested (N - 1) = true) :
  t.locals.calls.length ≤ bytes.length + N
  := by
  have hcooperative := cooperative_receiveExactBusySpinRun stopRequested bytes trace
  have hspent := htrace.spent
  simp only [hrun] at hcooperative hspent
  have hanswers := hcooperative.length_answers hN hstop
  have hcalls := hspent.calls_le
  omega

/-- A receive of a stream that the kernel answers often enough returns. -/
theorem RecvTrace.returns (htrace : RecvTrace stopRequested bytes trace)
    (hrun : receiveExactBusySpinRun stopRequested bytes trace = (t, rest)) (hN : 1 ≤ N)
    (hstop : stopRequested (N - 1) = true) (hlength : bytes.length + N ≤ trace.length) :
  ∃ p result, t = .done p result
  := by
  have hcooperative := cooperative_receiveExactBusySpinRun stopRequested bytes trace
  have htaken := calls_receiveExactBusySpinRun stopRequested bytes trace
  have hspent := htrace.spent
  have hreceived := htrace.received
  simp only [hrun] at hcooperative htaken hspent hreceived
  cases t with
  | done p result => use p, result
  | again p =>
      have hrest : rest = [] := Turn.run_again_snd hrun
      have hlt := hreceived.again p rfl
      have hle := hspent.again p rfl
      have hfew := hcooperative.length_answers_again hN hstop
      rw [hrest, List.append_nil, Turn.locals] at htaken
      rw [htaken] at hle
      omega

/-- A receive of a stream that gets all it has asked for is complete, with all that was
delivered. -/
theorem RecvTrace.completes (htrace : RecvTrace stopRequested bytes trace)
    (hrun : receiveExactBusySpinRun stopRequested bytes trace = (.again p, rest))
    {received : List Byte} (hrequested : received.length = p.locals.requested)
    (rest' : List RecvOutcome) :
  ∃ p' result, receiveExactBusySpinRun stopRequested bytes (trace ++ .received received :: rest')
      = (.done p' result, rest')
    ∧ result.state = .complete ∧ p'.locals.bytes = delivered trace ++ received
  := by
  have hreceived := htrace.received
  have htaken := calls_receiveExactBusySpinRun stopRequested bytes trace
  rw [hrun] at hreceived htaken
  rw [Turn.run_again_snd hrun, List.append_nil] at htaken
  have hlength := hreceived.toFilled.length
  have hbuffer := hreceived.toFilled.buffer
  have hdelivered := hreceived.toFilled.delivered
  have hlt := hreceived.again p rfl
  rw [htaken, Turn.locals] at hbuffer hdelivered
  rw [Turn.locals] at hlength
  rw [← hlength] at hlt
  have hpos : received.length > 0 := by
    rw [hrequested, Receiving.requested]
    omega
  have hfilled : (p.locals.fill received).bytes = delivered trace ++ received := by
    have hrest : (bytes.drop p.locals.bytesReceived).drop received.length = [] := by
      apply List.drop_eq_nil_of_le
      rw [List.length_drop, hrequested, Receiving.requested, hlength]
    rw [Receiving.fill, hbuffer, Span.write_append hdelivered, hrest, List.append_nil]
  rw [receiveExactBusySpinRun, Turn.run_append_of_again hrun,
    Turn.run_again_cons, receiveExactBusySpin, if_pos hpos, Polling.locals_called,
    receiveExactHead_fill hrequested hlt, Receiving.finish, Polling.turn, Turn.map,
    Turn.run_done]
  exact ⟨_, _, rfl, rfl, hfilled⟩

end Stream

/-! ### Datagrams -/

section Datagram

variable {N : ℕ} {p : Polling (List Byte) RecvmsgOutcome}
  {t : Turn (Polling (List Byte) RecvmsgOutcome) DatagramReceiveResult}
  {trace rest : List RecvmsgOutcome}

/-- A receive of a datagram calls the kernel once for each consultation at most. -/
theorem datagram_calls_le
    (hrun : receiveDatagramBusySpinRun stopRequested buffer trace = (t, rest)) (hN : 1 ≤ N)
    (hstop : stopRequested (N - 1) = true) :
  t.locals.calls.length ≤ N
  := by
  have hcooperative := cooperative_receiveDatagramBusySpinRun stopRequested buffer trace
  have hconsulted := consulted_receiveDatagramBusySpinRun stopRequested buffer trace
  rw [hrun] at hcooperative hconsulted
  cases t with
  | again p =>
      have hfew := hcooperative.length_answers_again hN hstop
      have heq := hconsulted.again p rfl
      rw [Turn.locals]
      omega
  | done p result =>
      rw [Turn.locals]
      by_cases hstopped : result.state = .stopped
      · have hanswers : p.answers.length ≤ N := hcooperative.length_answers hN hstop
        have heq := hconsulted.stopped p result rfl hstopped
        omega
      · have hfew := hcooperative.length_answers_done hstopped hN hstop
        have hle := hconsulted.done p result rfl
        omega

/-- A receive of a datagram that the kernel answers often enough returns. -/
theorem datagram_returns
    (hrun : receiveDatagramBusySpinRun stopRequested buffer trace = (t, rest)) (hN : 1 ≤ N)
    (hstop : stopRequested (N - 1) = true) (hlength : N ≤ trace.length) :
  ∃ p result, t = .done p result
  := by
  have hcooperative := cooperative_receiveDatagramBusySpinRun stopRequested buffer trace
  have htaken := calls_receiveDatagramBusySpinRun stopRequested buffer trace
  have hconsulted := consulted_receiveDatagramBusySpinRun stopRequested buffer trace
  simp only [hrun] at hcooperative htaken hconsulted
  cases t with
  | done p result => use p, result
  | again p =>
      have hrest : rest = [] := Turn.run_again_snd hrun
      have hfew := hcooperative.length_answers_again hN hstop
      have heq := hconsulted.again p rfl
      rw [hrest, List.append_nil, Turn.locals] at htaken
      rw [htaken] at heq
      omega

/-- What holds after any turn of a receive into `buffer`. It goes on only as long as the kernel
has given it nothing, and when it is given a datagram it returns that, in its buffer. -/
structure GivenDatagram (buffer : List Byte)
    (t : Turn (Polling (List Byte) RecvmsgOutcome) DatagramReceiveResult) : Prop where
  again : ∀ p, t = .again p → p.locals = buffer ∧ ∀ message, .received message ∉ p.calls
  done : ∀ p result, t = .done p result →
    (result.state ≠ .received ∧ p.locals = buffer ∧ ∀ message, .received message ∉ p.calls)
    ∨ ∃ before message, p.calls = before ++ [.received message]
      ∧ (∀ earlier, .received earlier ∉ before)
      ∧ result = message.result ∧ p.locals = Span.write buffer 0 message.bytes

/-- A turn on which the kernel gives nothing. -/
theorem givenDatagram_turn {t : Turn (List Byte) DatagramReceiveResult}
    (hcalls : ∀ message, .received message ∉ p.calls) (hbuffer : t.locals = buffer)
    (hstate : ∀ l result, t = .done l result → result.state ≠ .received) :
  GivenDatagram buffer (p.turn t)
  := by
  cases t with
  | again l =>
      constructor
      · intro p' hp'
        obtain rfl := Turn.again.inj hp'
        use hbuffer
        apply hcalls
      · intro p' result hp'
        cases hp'
  | done l result =>
      constructor
      · intro p' hp'
        cases hp'
      · intro p' result' hp'
        obtain ⟨rfl, rfl⟩ := Turn.done.inj hp'
        left
        use hstate l _ rfl, hbuffer
        apply hcalls

theorem GivenDatagram.turn {outcome : RecvmsgOutcome} (h : GivenDatagram buffer (.again p)) :
  GivenDatagram buffer (receiveDatagramBusySpin stopRequested p outcome)
  := by
  obtain ⟨rfl, hcalls⟩ := h.again p rfl
  cases hidle : outcome.idle with
  | true =>
      rw [receiveDatagramBusySpin_idle hidle]
      apply givenDatagram_turn
      · intro message hmem
        rw [Polling.calls_consult, Polling.calls_called, List.mem_append] at hmem
        rcases hmem with hmem | hmem
        · apply hcalls message hmem
        · rw [← List.mem_singleton.mp hmem] at hidle
          cases hidle
      · split_ifs <;> rfl
      · intro l result hdone
        split_ifs at hdone
        obtain ⟨-, rfl⟩ := Turn.done.inj hdone
        simp
  | false =>
      cases outcome with
      | received message =>
          rw [receiveDatagramBusySpin_received]
          constructor
          · intro p' hp'
            cases hp'
          · intro p' result hp'
            obtain ⟨rfl, rfl⟩ := Turn.done.inj hp'
            right
            use p.calls, message
            use p.calls_called _, hcalls
            exact ⟨rfl, rfl⟩
      | failed errno =>
          rw [receiveDatagramBusySpin_failed hidle]
          apply givenDatagram_turn
          · intro message hmem
            rw [Polling.calls_called, List.mem_append] at hmem
            rcases hmem with hmem | hmem
            · apply hcalls message hmem
            · cases List.mem_singleton.mp hmem
          · rfl
          · intro l result hdone
            obtain ⟨-, rfl⟩ := Turn.done.inj hdone
            simp

theorem givenDatagram_receiveDatagramBusySpinRun (stopRequested : ℕ → Bool)
    (buffer : List Byte) (trace : List RecvmsgOutcome) :
  GivenDatagram buffer (receiveDatagramBusySpinRun stopRequested buffer trace).1
  := by
  apply Turn.run_invariant (P := fun t _ => GivenDatagram buffer t)
  · apply givenDatagram_turn (p := Polling.start buffer) (t := .again buffer)
    · intro message hmem
      cases hmem
    · rfl
    · intro l result hdone
      cases hdone
  · intro p outcome _ hp
    apply hp.turn

/-- A receive that gets a datagram returns it. -/
theorem datagram_received
    (hrun : receiveDatagramBusySpinRun stopRequested buffer trace = (.again p, rest))
    (message : ReceivedMessage) (rest' : List RecvmsgOutcome) :
  ∃ p', receiveDatagramBusySpinRun stopRequested buffer
      (trace ++ .received message :: rest') = (.done p' message.result, rest')
    ∧ p'.locals = Span.write buffer 0 message.bytes
  := by
  have hgiven := givenDatagram_receiveDatagramBusySpinRun stopRequested buffer trace
  rw [hrun] at hgiven
  obtain ⟨hbuffer, -⟩ := hgiven.again p rfl
  rw [receiveDatagramBusySpinRun, Turn.run_append_of_again hrun,
    Turn.run_again_cons, receiveDatagramBusySpin_received, Polling.turn, Turn.map,
    Turn.run_done, hbuffer]
  exact ⟨_, rfl, rfl⟩

end Datagram

/-- Cooperative cancellation is bounded and never discards data. The answers of the kernel are
taken from the trace one by one. When the `N`-th consultation answers `true`, a receive of a
stream calls the kernel at most `bytes.size() + N` times and one of a datagram at most `N` times,
and has returned by then. The predicate is consulted once after each interruption and each
answer that nothing is there, and never otherwise; the result is `stopped` exactly when the last
consultation answered `true`. The buffer holds what was delivered, and a call whose last answer
from the kernel delivers what is missing of the stream, or a datagram, returns it. -/
theorem cancellation_bounded (stopRequested : ℕ → Bool) (N : ℕ) (hN : 1 ≤ N)
    (hstop : stopRequested (N - 1) = true) :
  (∀ bytes trace, RecvTrace stopRequested bytes trace →
      ∀ t rest, receiveExactBusySpinRun stopRequested bytes trace = (t, rest) →
      t.locals.calls ++ rest = trace
        ∧ t.locals.calls.length ≤ bytes.length + N
        ∧ (bytes.length + N ≤ trace.length → ∃ p result, t = .done p result)
        ∧ Polled RecvOutcome.idle t.locals.events
        ∧ t.locals.answers.length = (t.locals.calls.filter RecvOutcome.idle).length
        ∧ t.locals.answers = (List.range t.locals.answers.length).map stopRequested
        ∧ (∀ p result, t = .done p result →
            (result.state = .stopped ↔ p.answers.getLast? = some true))
        ∧ Received bytes t
        ∧ ∀ p received rest', t = .again p → received.length = p.locals.requested →
            ∃ p' result, receiveExactBusySpinRun stopRequested bytes
                (trace ++ .received received :: rest') = (.done p' result, rest')
              ∧ result.state = .complete ∧ p'.locals.bytes = delivered trace ++ received)
    ∧ ∀ buffer trace t rest,
        receiveDatagramBusySpinRun stopRequested buffer trace = (t, rest) →
        t.locals.calls ++ rest = trace
          ∧ t.locals.calls.length ≤ N
          ∧ (N ≤ trace.length → ∃ p result, t = .done p result)
          ∧ Polled RecvmsgOutcome.idle t.locals.events
          ∧ t.locals.answers.length = (t.locals.calls.filter RecvmsgOutcome.idle).length
          ∧ t.locals.answers = (List.range t.locals.answers.length).map stopRequested
          ∧ (∀ p result, t = .done p result →
              (result.state = .stopped ↔ p.answers.getLast? = some true))
          ∧ GivenDatagram buffer t
          ∧ ∀ p message rest', t = .again p →
              ∃ p', receiveDatagramBusySpinRun stopRequested buffer
                  (trace ++ .received message :: rest') = (.done p' message.result, rest')
                ∧ message.result.state = .received
                ∧ p'.locals = Span.write buffer 0 message.bytes
  := by
  constructor
  · intro bytes trace htrace t rest hrun
    have hcooperative := cooperative_receiveExactBusySpinRun stopRequested bytes trace
    have htaken := calls_receiveExactBusySpinRun stopRequested bytes trace
    have hreceived := htrace.received
    rw [hrun] at hcooperative htaken hreceived
    use htaken
    constructor
    · apply htrace.calls_le hrun hN hstop
    constructor
    · apply htrace.returns hrun hN hstop
    use hcooperative.polled, hcooperative.polled.length_answers, hcooperative.answers,
      hcooperative.stopped, hreceived
    rintro p received rest' rfl hrequested
    apply htrace.completes hrun hrequested
  · intro buffer trace t rest hrun
    have hcooperative := cooperative_receiveDatagramBusySpinRun stopRequested buffer trace
    have htaken := calls_receiveDatagramBusySpinRun stopRequested buffer trace
    have hgiven := givenDatagram_receiveDatagramBusySpinRun stopRequested buffer trace
    rw [hrun] at hcooperative htaken hgiven
    use htaken
    constructor
    · apply datagram_calls_le hrun hN hstop
    constructor
    · apply datagram_returns hrun hN hstop
    use hcooperative.polled, hcooperative.polled.length_answers, hcooperative.answers,
      hcooperative.stopped, hgiven
    rintro p message rest' rfl
    obtain ⟨p', hp', hbuffer⟩ := datagram_received hrun message rest'
    use p', hp', rfl

/-- A receive of two bytes that is interrupted, gets one byte, and is stopped by the second
consultation. -/
def stoppedSecond : List RecvOutcome :=
  [.failed EINTR, .received [7], .failed EAGAIN, .received [8]]

/-- A datagram of two bytes, of which a buffer of one byte holds one. -/
def truncatedMessage : ReceivedMessage where
  bytes := [9]
  returned := 2
  name := { family := 2, port := 0, address := 0 }
  nameLength := SockaddrIn.size
  flags := MSG_TRUNC

/-- The stream is stopped with its first byte kept and the second one still to be received. The
datagram is returned after one consultation, though the next one would have asked to stop. -/
theorem cancellation_bounded_stoppedSecond :
  (∃ p result, receiveExactBusySpinRun (fun n => 1 ≤ n) [0, 0] stoppedSecond
      = (.done p result, [.received [8]])
    ∧ p.calls = [.failed EINTR, .received [7], .failed EAGAIN] ∧ p.calls.length ≤ 2 + 2
    ∧ p.answers = [false, true] ∧ result.state = .stopped
    ∧ result.bytesReceived = 1 ∧ p.locals.bytes = [7, 0])
  ∧ ∃ p, receiveDatagramBusySpinRun (fun n => 1 ≤ n) [0]
        [.failed EAGAIN, .received truncatedMessage] = (.done p truncatedMessage.result, [])
    ∧ p.calls = [.failed EAGAIN, .received truncatedMessage] ∧ p.calls.length ≤ 2
    ∧ p.answers = [false] ∧ p.locals = [9]
  := by
  have hbounded := cancellation_bounded (fun n => 1 ≤ n) 2 (by decide) rfl
  constructor
  · have htrace : RecvTrace (fun n => 1 ≤ n) [0, 0] stoppedSecond := by
      refine ⟨trivial, ?_, trivial, trivial⟩
      apply Nat.le_succ 1
    have hrun : ∃ p result, receiveExactBusySpinRun (fun n => 1 ≤ n) [0, 0] stoppedSecond
        = (.done p result, [.received [8]]) ∧ p.answers = [false, true]
        ∧ p.locals.bytesReceived = 1 := ⟨_, _, rfl, rfl, rfl⟩
    obtain ⟨p, result, hrun, hanswers, hbytes⟩ := hrun
    obtain ⟨htaken, hcalls, -, -, -, -, hstopped, hreceived, -⟩ := hbounded.1 _ _ htrace _ _ hrun
    have hcalled : p.calls = [.failed EINTR, .received [7], .failed EAGAIN] :=
      List.append_cancel_right htaken
    have hbuffer : p.locals.bytes = _ := hreceived.toFilled.buffer
    rw [Turn.locals, hcalled, hbytes] at hbuffer
    use p, result, hrun, hcalled, hcalls, hanswers
    use (hstopped p result rfl).mpr (by rw [hanswers]; rfl)
    use (hreceived.done p result rfl).1.trans hbytes, hbuffer
  · have hrun : ∃ p, receiveDatagramBusySpinRun (fun n => 1 ≤ n) [0] [.failed EAGAIN]
        = (.again p, []) := ⟨_, rfl⟩
    obtain ⟨p, hrun⟩ := hrun
    obtain ⟨-, -, -, -, -, -, -, -, hgiven⟩ := hbounded.2 _ _ _ _ hrun
    obtain ⟨p', hrun', -, hbuffer⟩ := hgiven p truncatedMessage [] rfl
    obtain ⟨htaken, hcalls, -, -, hlength, hanswers, -⟩ := hbounded.2 _ _ _ _ hrun'
    rw [List.append_nil] at htaken
    rw [hlength, htaken] at hanswers
    use p', hrun', htaken, hcalls, hanswers, hbuffer

end Sockets
