import LowLatency.Sockets.Polling

/-!
# Receiving a datagram

The loop of `receive_datagram_once` and the three calls built on it, one answer of `recvmsg` at
a time.
-/

namespace Sockets

/-! ### Results -/

def MSG_TRUNC : ℕ := 0x20

def MSG_DONTWAIT : ℕ := 0x40

inductive DatagramReceiveState where
  | received
  | notReady
  | stopped
  | error
  deriving DecidableEq, Repr

/-- An IPv4 address of a socket, in network order. -/
structure SockaddrIn where
  family : UInt16
  port : UInt16
  address : UInt32
  deriving DecidableEq, Repr

/-- The size of a `sockaddr_in`. -/
def SockaddrIn.size : ℕ := 16

structure DatagramReceiveResult where
  state : DatagramReceiveState
  wireBytes : ℕ
  peer : SockaddrIn
  peerLength : ℕ
  messageFlags : ℕ
  error : Option Errno
  deriving DecidableEq, Repr

namespace DatagramReceiveResult

/-- The result that a call begins with. -/
def initial : DatagramReceiveResult where
  state := .received
  wireBytes := 0
  peer := { family := 0, port := 0, address := 0 }
  peerLength := 0
  messageFlags := 0
  error := none

def received (result : DatagramReceiveResult) : Bool :=
  result.state = .received

def truncated (result : DatagramReceiveResult) (bufferBytes : ℕ) : Bool :=
  result.received ∧ (result.messageFlags &&& MSG_TRUNC ≠ 0 ∨ result.wireBytes > bufferBytes)

end DatagramReceiveResult

/-! ### One datagram -/

/-- What `recvmsg` reports of a datagram: the bytes it has put into the buffer, the number it
returns, and the name and flags it has set. -/
structure ReceivedMessage where
  bytes : List Byte
  returned : ℕ
  name : SockaddrIn
  nameLength : ℕ
  flags : ℕ

/-- What `recvmsg` returns: a datagram, or a failure. -/
inductive RecvmsgOutcome where
  | received (message : ReceivedMessage)
  | failed (errno : Errno)

/-- The flags that `receive_datagram_once` gives to `recvmsg`. -/
def recvmsgFlags (flags : ℕ) : ℕ :=
  flags ||| MSG_TRUNC

/-- A turn of `receive_datagram_once` into `buffer`. -/
def receiveDatagramOnce (flags : ℕ) (retryInterrupted : Bool) (buffer : List Byte) :
    RecvmsgOutcome → Turn (List Byte) DatagramReceiveResult
  | .received message =>
      .done (Span.write buffer 0 message.bytes)
        { DatagramReceiveResult.initial with
          state := .received
          wireBytes := message.returned
          peer := message.name
          peerLength := message.nameLength
          messageFlags := message.flags }
  | .failed errno =>
      if errno = EINTR ∧ retryInterrupted then .again buffer
      else if flags &&& MSG_DONTWAIT ≠ 0 ∧ (errno = EAGAIN ∨ errno = EWOULDBLOCK) then
        .done buffer { DatagramReceiveResult.initial with state := .notReady }
      else
        .done buffer { DatagramReceiveResult.initial with state := .error, error := some errno }

/-- A turn of `receive_datagram_blocking`. -/
def receiveDatagramBlocking : List Byte → RecvmsgOutcome → Turn (List Byte) DatagramReceiveResult :=
  receiveDatagramOnce 0 true

/-- A turn of `try_receive_datagram`. -/
def tryReceiveDatagram : List Byte → RecvmsgOutcome → Turn (List Byte) DatagramReceiveResult :=
  receiveDatagramOnce MSG_DONTWAIT true

/-- A turn of `receive_datagram_busy_spin`, where the predicate answers the sequence
`stopRequested`. -/
def receiveDatagramBusySpin (stopRequested : ℕ → Bool)
    (p : Polling (List Byte) RecvmsgOutcome) (outcome : RecvmsgOutcome) :
    Turn (Polling (List Byte) RecvmsgOutcome) DatagramReceiveResult :=
  let p := p.called outcome
  match receiveDatagramOnce MSG_DONTWAIT false p.locals outcome with
  | .again buffer => p.turn (.again buffer)
  | .done buffer result =>
      if result.state ≠ .notReady then
        if result.state = .error ∧ result.error = some EINTR then
          let (answer, p) := p.consult stopRequested
          if answer then p.turn (.done buffer { result with state := .stopped, error := none })
          else p.turn (.again buffer)
        else p.turn (.done buffer result)
      else
        let (answer, p) := p.consult stopRequested
        if answer then p.turn (.done buffer { result with state := .stopped })
        else p.turn (.again buffer)

/-- `receive_datagram_busy_spin` over a trace of answers. -/
def receiveDatagramBusySpinRun (stopRequested : ℕ → Bool) (buffer : List Byte)
    (trace : List RecvmsgOutcome) :
    Turn (Polling (List Byte) RecvmsgOutcome) DatagramReceiveResult × List RecvmsgOutcome :=
  Turn.run (receiveDatagramBusySpin stopRequested) (.again (Polling.start buffer)) trace

/-! ### The turns -/

/-- The kernel has nothing, or is interrupted. -/
def RecvmsgOutcome.idle : RecvmsgOutcome → Bool
  | .received _ => false
  | .failed errno => errno = EINTR ∨ errno = EAGAIN ∨ errno = EWOULDBLOCK

/-- The result of a call to which the kernel has given a datagram. -/
def ReceivedMessage.result (message : ReceivedMessage) : DatagramReceiveResult :=
  { DatagramReceiveResult.initial with
    state := .received
    wireBytes := message.returned
    peer := message.name
    peerLength := message.nameLength
    messageFlags := message.flags }

section Turns

variable {stopRequested : ℕ → Bool} {p : Polling (List Byte) RecvmsgOutcome} {buffer : List Byte}
  {outcome : RecvmsgOutcome} {errno : Errno} {message : ReceivedMessage}

/-- A turn that is given a datagram returns it. -/
theorem receiveDatagramBusySpin_received :
  receiveDatagramBusySpin stopRequested p (.received message)
    = (p.called (.received message)).turn
        (.done (Span.write p.locals 0 message.bytes) message.result)
  := rfl

/-- A call of the spinning receive never repeats its `recvmsg`. -/
theorem receiveDatagramOnce_failed (buffer : List Byte) (errno : Errno) :
  receiveDatagramOnce MSG_DONTWAIT false buffer (.failed errno)
    = .done buffer (if errno = EAGAIN ∨ errno = EWOULDBLOCK
        then { DatagramReceiveResult.initial with state := .notReady }
        else { DatagramReceiveResult.initial with state := .error, error := some errno })
  := by
  have hflag : MSG_DONTWAIT &&& MSG_DONTWAIT ≠ 0 := by decide
  rw [receiveDatagramOnce, if_neg (by simp)]
  by_cases hwould : errno = EAGAIN ∨ errno = EWOULDBLOCK
  · rw [if_pos ⟨hflag, hwould⟩, if_pos hwould]
  · rw [if_neg (fun h => hwould h.2), if_neg hwould]

/-- A turn that is given an error returns it. -/
theorem receiveDatagramBusySpin_failed (h : (RecvmsgOutcome.failed errno).idle = false) :
  receiveDatagramBusySpin stopRequested p (.failed errno)
    = (p.called (.failed errno)).turn
        (.done p.locals { DatagramReceiveResult.initial with state := .error, error := some errno })
  := by
  simp only [RecvmsgOutcome.idle, decide_eq_false_iff_not, not_or] at h
  obtain ⟨hintr, hagain⟩ := h
  have hwould : ¬ (errno = EAGAIN ∨ errno = EWOULDBLOCK) := not_or.mpr hagain
  simp only [receiveDatagramBusySpin, receiveDatagramOnce_failed, if_neg hwould,
    Option.some.injEq, hintr, and_false, if_false]
  rfl

/-- A turn in which the predicate is consulted. -/
theorem receiveDatagramBusySpin_idle (h : outcome.idle = true) :
  receiveDatagramBusySpin stopRequested p outcome
    = ((p.called outcome).consult stopRequested).2.turn
        (if stopRequested p.answers.length then
          .done p.locals { DatagramReceiveResult.initial with state := .stopped }
        else .again p.locals)
  := by
  cases outcome with
  | received message => cases h
  | failed errno =>
      simp only [RecvmsgOutcome.idle, decide_eq_true_iff] at h
      simp only [receiveDatagramBusySpin, receiveDatagramOnce_failed, Polling.consult_fst,
        Polling.answers_called]
      by_cases hwould : errno = EAGAIN ∨ errno = EWOULDBLOCK
      · simp only [if_pos hwould, ne_eq, not_true_eq_false, if_false]
        split_ifs <;> rfl
      · obtain rfl : errno = EINTR := h.resolve_right hwould
        simp only [if_neg hwould, ne_eq, reduceCtorEq, not_false_eq_true, if_true, and_self]
        split_ifs <;> rfl

/-- The loop polls. -/
theorem polls_receiveDatagramBusySpin (stopRequested : ℕ → Bool) :
  Polls stopRequested RecvmsgOutcome.idle (fun result => result.state = .stopped)
    (receiveDatagramBusySpin stopRequested)
  := by
  constructor
  · intro p outcome h
    cases outcome with
    | received message =>
        use .done (Span.write p.locals 0 message.bytes) message.result
        use receiveDatagramBusySpin_received
        intro l result hdone
        obtain ⟨-, rfl⟩ := Turn.done.inj hdone
        simp [ReceivedMessage.result]
    | failed errno =>
        use .done p.locals
          { DatagramReceiveResult.initial with state := .error, error := some errno }
        use receiveDatagramBusySpin_failed h
        intro l result hdone
        obtain ⟨-, rfl⟩ := Turn.done.inj hdone
        simp
  · intro p outcome h hstop
    use .again p.locals
    rw [receiveDatagramBusySpin_idle h, hstop]
    use rfl
    intro l result hdone
    cases hdone
  · intro p outcome h hstop
    use p.locals, { DatagramReceiveResult.initial with state := .stopped }
    rw [receiveDatagramBusySpin_idle h, hstop]
    exact ⟨rfl, rfl⟩

theorem cooperative_receiveDatagramBusySpinRun (stopRequested : ℕ → Bool) (buffer : List Byte)
    (trace : List RecvmsgOutcome) :
  Cooperative stopRequested RecvmsgOutcome.idle (fun result => result.state = .stopped)
    (receiveDatagramBusySpinRun stopRequested buffer trace).1
  := by
  apply Cooperative.run (polls_receiveDatagramBusySpin stopRequested)
  apply cooperative_start buffer (.again buffer)
  intro l result hdone
  cases hdone

/-- The calls are the part of the trace that is taken. -/
theorem calls_receiveDatagramBusySpinRun (stopRequested : ℕ → Bool) (buffer : List Byte)
    (trace : List RecvmsgOutcome) :
  (receiveDatagramBusySpinRun stopRequested buffer trace).1.locals.calls
    ++ (receiveDatagramBusySpinRun stopRequested buffer trace).2 = trace
  := by
  apply (polls_receiveDatagramBusySpin stopRequested).calls_run
  rfl

/-- Every call of the kernel is followed by a consultation, the last one of a receive that
returns without a stop apart. -/
structure Consulted (t : Turn (Polling (List Byte) RecvmsgOutcome) DatagramReceiveResult) :
    Prop where
  again : ∀ p, t = .again p → p.calls.length = p.answers.length
  stopped : ∀ p result, t = .done p result → result.state = .stopped →
    p.calls.length = p.answers.length
  done : ∀ p result, t = .done p result → p.calls.length ≤ p.answers.length + 1

theorem consulted_turn {t : Turn (List Byte) DatagramReceiveResult}
    (hle : p.calls.length ≤ p.answers.length + 1)
    (heq : (∀ buffer result, t = .done buffer result → result.state = .stopped) →
      p.calls.length = p.answers.length) :
  Consulted (p.turn t)
  := by
  cases t with
  | again buffer =>
      constructor
      · intro p' hp'
        obtain rfl := Turn.again.inj hp'
        apply heq
        intro buffer result hdone
        cases hdone
      · intro p' result hp'
        cases hp'
      · intro p' result hp'
        cases hp'
  | done buffer result =>
      constructor
      · intro p' hp'
        cases hp'
      · intro p' result' hp' hstopped
        obtain ⟨rfl, rfl⟩ := Turn.done.inj hp'
        apply heq
        intro buffer' result' hdone
        obtain ⟨-, rfl⟩ := Turn.done.inj hdone
        apply hstopped
      · intro p' result' hp'
        obtain ⟨rfl, rfl⟩ := Turn.done.inj hp'
        apply hle

theorem Consulted.turn (h : Consulted (.again p)) :
  Consulted (receiveDatagramBusySpin stopRequested p outcome)
  := by
  have hp := h.again p rfl
  have hbusy : ∀ buffer result, result.state ≠ .stopped →
      Consulted ((p.called outcome).turn (.done buffer result)) := by
    intro buffer result hresult
    apply consulted_turn
    · simp [hp]
    · intro hstopped
      cases hresult (hstopped buffer result rfl)
  cases hidle : outcome.idle with
  | true =>
      rw [receiveDatagramBusySpin_idle hidle]
      apply consulted_turn
      · simp [hp]
      · intro _
        simp [hp]
  | false =>
      cases outcome with
      | received message =>
          rw [receiveDatagramBusySpin_received]
          apply hbusy
          simp [ReceivedMessage.result]
      | failed errno =>
          rw [receiveDatagramBusySpin_failed hidle]
          apply hbusy
          simp

theorem consulted_receiveDatagramBusySpinRun (stopRequested : ℕ → Bool) (buffer : List Byte)
    (trace : List RecvmsgOutcome) :
  Consulted (receiveDatagramBusySpinRun stopRequested buffer trace).1
  := by
  apply Turn.run_invariant (P := fun t _ => Consulted t)
  · apply consulted_turn (p := Polling.start buffer) (t := .again buffer)
    · apply Nat.zero_le
    · intro _
      rfl
  · intro p outcome _ hp
    apply hp.turn

end Turns

end Sockets
