import LowLatency.Library.Transition
import LowLatency.Sockets.Datagram
import Mathlib.Data.List.Forall2

/-!
# Datagrams through a queue

A program makes any of the three datagram receives, one after the other, on a socket for which
the kernel keeps a queue of datagrams. Between any two answers of the kernel more datagrams may
arrive.
-/

namespace Sockets

/-! ### The kernel -/

/-- A datagram in the queue of a socket. -/
structure QueuedDatagram where
  peer : SockaddrIn
  bytes : List Byte
  deriving DecidableEq, Repr

/-- What the kernel answers a `recvmsg`. -/
inductive DatagramAnswer where
  | deliver (flags : ℕ)
  | interrupt
  | wouldBlock
  | fail (errno : Errno)

/-- What `recvmsg` with `flags` returns for a buffer of `bufferBytes`, and what stays queued. The
kernel flags a datagram as truncated when the buffer is too small for it, and tells a call that
does not block that it would when nothing is queued. -/
def Kernel.recvmsg (queue : List QueuedDatagram) (flags bufferBytes : ℕ) :
    DatagramAnswer → Option (RecvmsgOutcome × List QueuedDatagram)
  | .deliver messageFlags =>
      match queue with
      | [] => none
      | datagram :: rest =>
          if messageFlags &&& MSG_TRUNC ≠ 0 ↔ bufferBytes < datagram.bytes.length then
            some
              (.received
                { bytes := datagram.bytes.take bufferBytes
                  returned :=
                    if flags &&& MSG_TRUNC ≠ 0 then datagram.bytes.length
                    else min bufferBytes datagram.bytes.length
                  name := datagram.peer
                  nameLength := SockaddrIn.size
                  flags := messageFlags },
              rest)
          else none
  | .interrupt => some (.failed EINTR, queue)
  | .wouldBlock =>
      if flags &&& MSG_DONTWAIT ≠ 0 ∧ queue = [] then some (.failed EAGAIN, queue) else none
  | .fail errno =>
      if errno ≠ EINTR ∧ ¬ (flags &&& MSG_DONTWAIT ≠ 0 ∧ (errno = EAGAIN ∨ errno = EWOULDBLOCK))
      then some (.failed errno, queue)
      else none

/-! ### The program -/

/-- The receives a program may make. -/
inductive DatagramCall where
  | blocking
  | tryReceive
  | busySpin (stopRequested : ℕ → Bool)

namespace DatagramCall

/-- The flags that reach `recvmsg`. -/
def flags : DatagramCall → ℕ
  | .blocking => recvmsgFlags 0
  | .tryReceive => recvmsgFlags MSG_DONTWAIT
  | .busySpin _ => recvmsgFlags MSG_DONTWAIT

/-- A turn of a receive. -/
def turn (call : DatagramCall) (p : Polling (List Byte) RecvmsgOutcome)
    (outcome : RecvmsgOutcome) : Turn (Polling (List Byte) RecvmsgOutcome) DatagramReceiveResult :=
  match call with
  | .blocking => (p.called outcome).turn (receiveDatagramBlocking p.locals outcome)
  | .tryReceive => (p.called outcome).turn (tryReceiveDatagram p.locals outcome)
  | .busySpin stopRequested => receiveDatagramBusySpin stopRequested p outcome

end DatagramCall

/-- A call that has returned: the buffer it was given, what the buffer holds after it, and its
result. -/
structure DatagramReturn where
  call : DatagramCall
  buffer : List Byte
  contents : List Byte
  result : DatagramReceiveResult

/-- A call under way into `buffer`. -/
structure DatagramReceiving where
  call : DatagramCall
  buffer : List Byte
  loop : Polling (List Byte) RecvmsgOutcome

/-- The socket and the program. -/
structure DatagramSocket where
  arrived : List QueuedDatagram
  queue : List QueuedDatagram
  receiving : Option DatagramReceiving
  returned : List DatagramReturn

/-- What may happen: a datagram arrives, the program begins a call, or the kernel answers. -/
inductive DatagramAction where
  | arrive (datagram : QueuedDatagram)
  | receive (call : DatagramCall) (buffer : List Byte)
  | answer (answer : DatagramAnswer)

namespace DatagramSocket

/-- The program after a turn of a call. -/
def settle (s : DatagramSocket) (r : DatagramReceiving) :
    Turn (Polling (List Byte) RecvmsgOutcome) DatagramReceiveResult → DatagramSocket
  | .again loop => { s with receiving := some { r with loop := loop } }
  | .done loop result =>
      { s with
        receiving := none
        returned := s.returned ++
          [{ call := r.call, buffer := r.buffer, contents := loop.locals, result := result }] }

def step (s : DatagramSocket) : DatagramAction → Option DatagramSocket
  | .arrive datagram =>
      some { s with arrived := s.arrived ++ [datagram], queue := s.queue ++ [datagram] }
  | .receive call buffer =>
      match s.receiving with
      | some _ => none
      | none =>
          some { s with
            receiving := some { call := call, buffer := buffer, loop := Polling.start buffer } }
  | .answer answer =>
      match s.receiving with
      | none => none
      | some r =>
          (Kernel.recvmsg s.queue r.call.flags r.loop.locals.length answer).map
            fun (outcome, queue) => { s with queue := queue }.settle r (r.call.turn r.loop outcome)

end DatagramSocket

/-- A socket on which nothing has happened. -/
def datagramSocket : TransitionSystem DatagramSocket DatagramAction where
  initial := { arrived := [], queue := [], receiving := none, returned := [] }
  step action s := s.step action

/-! ### What is returned -/

namespace DatagramReturn

/-- A call has returned a datagram: its peer, its length, the part of it that fits the buffer,
and whether that is all of it. -/
structure Carries (r : DatagramReturn) (datagram : QueuedDatagram) : Prop where
  peer : r.result.peer = datagram.peer
  peerLength : r.result.peerLength = SockaddrIn.size
  wireBytes : r.result.wireBytes = datagram.bytes.length
  contents : r.contents = datagram.bytes.take r.buffer.length ++ r.buffer.drop datagram.bytes.length
  truncated : r.result.truncated r.buffer.length = true ↔ r.buffer.length < datagram.bytes.length
  error : r.result.error = none

/-- Which call may return what. -/
structure Sound (r : DatagramReturn) : Prop where
  notReady : r.result.state = .notReady → r.call = .tryReceive
  stopped : r.result.state = .stopped → (∃ stopRequested, r.call = .busySpin stopRequested)
    ∧ r.result.error = none ∧ r.result.wireBytes = 0
  interrupted : r.result.error ≠ some EINTR

end DatagramReturn

/-! ### The turns of a call -/

section Turns

variable {call : DatagramCall} {p : Polling (List Byte) RecvmsgOutcome} {errno : Errno}
  {message : ReceivedMessage}

/-- A call that is given a datagram returns it. -/
theorem DatagramCall.turn_received :
  call.turn p (.received message)
    = (p.called (.received message)).turn
        (.done (Span.write p.locals 0 message.bytes) message.result)
  := by
  cases call <;> rfl

/-- A turn of a call that is not given a datagram: it goes on, or returns that there is none,
and leaves the buffer. -/
inductive NoDatagram (call : DatagramCall) (buffer : List Byte) :
    Turn (Polling (List Byte) RecvmsgOutcome) DatagramReceiveResult → Prop where
  | again {p : Polling (List Byte) RecvmsgOutcome} (h : p.locals = buffer) :
      NoDatagram call buffer (.again p)
  | done {p : Polling (List Byte) RecvmsgOutcome} {result : DatagramReceiveResult}
      (h : p.locals = buffer) (hreceived : result.received = false)
      (hsound : DatagramReturn.Sound
        { call := call, buffer := buffer, contents := buffer, result := result }) :
      NoDatagram call buffer (.done p result)

theorem noDatagram_notReady :
  NoDatagram .tryReceive p.locals
    (p.turn (.done p.locals { DatagramReceiveResult.initial with state := .notReady }))
  := by
  apply NoDatagram.done
  · rfl
  · rfl
  · constructor
    · intro _
      rfl
    · intro h
      cases h
    · simp [DatagramReceiveResult.initial]

theorem noDatagram_stopped {stopRequested : ℕ → Bool} :
  NoDatagram (.busySpin stopRequested) p.locals
    (p.turn (.done p.locals { DatagramReceiveResult.initial with state := .stopped }))
  := by
  apply NoDatagram.done
  · rfl
  · rfl
  · constructor
    · intro h
      cases h
    · intro _
      exact ⟨⟨stopRequested, rfl⟩, rfl, rfl⟩
    · simp [DatagramReceiveResult.initial]

theorem noDatagram_error (herrno : errno ≠ EINTR) :
  NoDatagram call p.locals
    (p.turn (.done p.locals
      { DatagramReceiveResult.initial with state := .error, error := some errno }))
  := by
  apply NoDatagram.done
  · rfl
  · rfl
  · constructor
    · intro h
      cases h
    · intro h
      cases h
    · intro h
      apply herrno (Option.some.inj h)

/-- A call to which the kernel gives no datagram. -/
theorem DatagramCall.turn_failed (call : DatagramCall) (p : Polling (List Byte) RecvmsgOutcome)
    (errno : Errno) :
  NoDatagram call p.locals (call.turn p (.failed errno))
  := by
  cases call with
  | blocking =>
      rw [DatagramCall.turn, receiveDatagramBlocking, receiveDatagramOnce]
      split_ifs with hintr hwould
      · apply NoDatagram.again
        rfl
      · cases hwould.1 (by decide)
      · apply noDatagram_error (p := p.called (.failed errno))
        intro h
        apply hintr ⟨h, rfl⟩
  | tryReceive =>
      rw [DatagramCall.turn, tryReceiveDatagram, receiveDatagramOnce]
      split_ifs with hintr hwould
      · apply NoDatagram.again
        rfl
      · apply noDatagram_notReady (p := p.called (.failed errno))
      · apply noDatagram_error (p := p.called (.failed errno))
        intro h
        apply hintr ⟨h, rfl⟩
  | busySpin stopRequested =>
      rw [DatagramCall.turn]
      cases hidle : (RecvmsgOutcome.failed errno).idle with
      | false =>
          rw [receiveDatagramBusySpin_failed hidle]
          apply noDatagram_error (p := p.called (.failed errno))
          rintro rfl
          cases hidle
      | true =>
          rw [receiveDatagramBusySpin_idle hidle]
          split_ifs
          · apply noDatagram_stopped
              (p := ((p.called (.failed errno)).consult stopRequested).2)
          · apply NoDatagram.again
            rfl

end Turns

/-! ### The queue and what is returned -/

namespace DatagramSocket

variable {s t : DatagramSocket}

/-- Every datagram that has arrived is returned, one call each, in order, or still queued. -/
structure Inv (s : DatagramSocket) : Prop where
  delivered : ∃ delivered, s.arrived = delivered ++ s.queue
    ∧ List.Forall₂ DatagramReturn.Carries (s.returned.filter (·.result.received)) delivered
  returned : ∀ r ∈ s.returned, r.Sound
  receiving : ∀ r ∈ s.receiving, r.loop.locals = r.buffer

/-- A turn without a datagram keeps the invariant. -/
theorem Inv.noDatagram (h : s.Inv) {r : DatagramReceiving}
    {turn : Turn (Polling (List Byte) RecvmsgOutcome) DatagramReceiveResult}
    (hturn : NoDatagram r.call r.buffer turn) :
  (s.settle r turn).Inv
  := by
  cases hturn with
  | again hlocals =>
      constructor
      · apply h.delivered
      · apply h.returned
      · intro r' hr'
        obtain rfl := Option.some.inj hr'
        apply hlocals
  | done hlocals hreceived hsound =>
      constructor
      · obtain ⟨delivered, harrived, hcarries⟩ := h.delivered
        use delivered, harrived
        simp only [settle, List.filter_append, List.filter_singleton, hreceived]
        simpa using hcarries
      · intro r' hr'
        simp only [settle, List.mem_append, List.mem_singleton] at hr'
        rcases hr' with hr' | rfl
        · apply h.returned r' hr'
        · rw [hlocals]
          apply hsound
      · intro r' hr'
        cases hr'

/-- The kernel gives a datagram from the queue, or leaves the queue. -/
theorem recvmsg_cases {queue rest : List QueuedDatagram} {flags bufferBytes : ℕ}
    {answer : DatagramAnswer} {outcome : RecvmsgOutcome}
    (h : Kernel.recvmsg queue flags bufferBytes answer = some (outcome, rest)) :
  (∃ errno, outcome = .failed errno ∧ rest = queue)
    ∨ ∃ datagram messageFlags, queue = datagram :: rest
      ∧ (messageFlags &&& MSG_TRUNC ≠ 0 ↔ bufferBytes < datagram.bytes.length)
      ∧ outcome = .received
          { bytes := datagram.bytes.take bufferBytes
            returned :=
              if flags &&& MSG_TRUNC ≠ 0 then datagram.bytes.length
              else min bufferBytes datagram.bytes.length
            name := datagram.peer
            nameLength := SockaddrIn.size
            flags := messageFlags }
  := by
  cases answer with
  | deliver messageFlags =>
      cases queue with
      | nil => cases h
      | cons datagram queue =>
          simp only [Kernel.recvmsg] at h
          by_cases hflags : messageFlags &&& MSG_TRUNC ≠ 0 ↔ bufferBytes < datagram.bytes.length
          · rw [if_pos hflags] at h
            obtain ⟨rfl, rfl⟩ := Prod.mk.inj (Option.some.inj h)
            right
            exact ⟨datagram, messageFlags, rfl, hflags, rfl⟩
          · rw [if_neg hflags] at h
            cases h
  | interrupt =>
      obtain ⟨rfl, rfl⟩ := Prod.mk.inj (Option.some.inj h)
      left
      use EINTR
  | wouldBlock =>
      simp only [Kernel.recvmsg] at h
      split_ifs at h
      obtain ⟨rfl, rfl⟩ := Prod.mk.inj (Option.some.inj h)
      left
      use EAGAIN
  | fail errno =>
      simp only [Kernel.recvmsg] at h
      split_ifs at h
      obtain ⟨rfl, rfl⟩ := Prod.mk.inj (Option.some.inj h)
      left
      use errno

/-- Every receive asks for the full length of a datagram. -/
theorem flags_trunc (call : DatagramCall) :
  call.flags &&& MSG_TRUNC ≠ 0
  := by
  cases call with
  | blocking => decide
  | tryReceive => decide
  | busySpin stopRequested =>
      rw [DatagramCall.flags]
      decide

/-- What the kernel delivers is what the call returns. -/
theorem carries_of_recvmsg {datagram : QueuedDatagram} {call : DatagramCall} {buffer : List Byte}
    {messageFlags : ℕ}
    (hflags : messageFlags &&& MSG_TRUNC ≠ 0 ↔ buffer.length < datagram.bytes.length) :
  DatagramReturn.Carries
    { call := call
      buffer := buffer
      contents := Span.write buffer 0 (datagram.bytes.take buffer.length)
      result := ReceivedMessage.result
        { bytes := datagram.bytes.take buffer.length
          returned :=
            if call.flags &&& MSG_TRUNC ≠ 0 then datagram.bytes.length
            else min buffer.length datagram.bytes.length
          name := datagram.peer
          nameLength := SockaddrIn.size
          flags := messageFlags } } datagram
  := by
  rw [if_pos (flags_trunc call)]
  constructor
  · rfl
  · rfl
  · rfl
  · simp only [Span.write, List.take_zero, List.nil_append, Nat.zero_add, List.length_take]
    congr 1
    by_cases hle : buffer.length ≤ datagram.bytes.length
    · rw [min_eq_left hle, List.drop_length, List.drop_eq_nil_of_le hle]
    · rw [min_eq_right (by omega)]
  · simp only [DatagramReceiveResult.truncated, ReceivedMessage.result,
      DatagramReceiveResult.received, decide_true, hflags, true_and, gt_iff_lt, or_self,
      decide_eq_true_iff]
  · rfl

/-- A turn with the first datagram of the queue keeps the invariant. -/
theorem Inv.deliver (h : s.Inv) {r : DatagramReceiving} {datagram : QueuedDatagram}
    {queue : List QueuedDatagram} {p : Polling (List Byte) RecvmsgOutcome} {contents : List Byte}
    {message : ReceivedMessage} (hqueue : s.queue = datagram :: queue)
    (hcarries : DatagramReturn.Carries
      { call := r.call, buffer := r.buffer, contents := contents, result := message.result }
      datagram) :
  ({ s with queue := queue }.settle r (p.turn (.done contents message.result))).Inv
  := by
  constructor
  · obtain ⟨delivered, harrived, hreturned⟩ := h.delivered
    use delivered ++ [datagram]
    constructor
    · simp only [settle, Polling.turn, Turn.map, harrived, hqueue, List.append_assoc,
        List.singleton_append]
    · simp only [settle, Polling.turn, Turn.map, List.filter_append]
      apply List.rel_append hreturned
      apply List.Forall₂.cons hcarries List.Forall₂.nil
  · intro r' hr'
    simp only [settle, Polling.turn, Turn.map, List.mem_append, List.mem_singleton] at hr'
    rcases hr' with hr' | rfl
    · apply h.returned r' hr'
    · constructor
      · intro hstate
        cases hstate
      · intro hstate
        cases hstate
      · simp [ReceivedMessage.result, DatagramReceiveResult.initial]
  · intro r' hr'
    cases hr'

/-- Every step keeps the invariant. -/
theorem Inv.step {action : DatagramAction} (h : s.Inv) (hstep : s.step action = some t) :
  t.Inv
  := by
  cases action with
  | arrive datagram =>
      obtain rfl := Option.some.inj hstep
      constructor
      · obtain ⟨delivered, harrived, hcarries⟩ := h.delivered
        use delivered
        rw [harrived, List.append_assoc]
        exact ⟨rfl, hcarries⟩
      · apply h.returned
      · apply h.receiving
  | receive call buffer =>
      simp only [DatagramSocket.step] at hstep
      split at hstep
      · cases hstep
      · obtain rfl := Option.some.inj hstep
        constructor
        · apply h.delivered
        · apply h.returned
        · intro r hr
          obtain rfl := Option.some.inj hr
          rfl
  | answer answer =>
      simp only [DatagramSocket.step] at hstep
      split at hstep
      case h_1 => cases hstep
      case h_2 r hr =>
        obtain ⟨⟨outcome, queue⟩, hrecvmsg, rfl⟩ := Option.map_eq_some_iff.mp hstep
        have hlocals := h.receiving r hr
        rw [hlocals] at hrecvmsg
        rcases recvmsg_cases hrecvmsg with ⟨errno, rfl, rfl⟩
          | ⟨datagram, messageFlags, hqueue, hflags, rfl⟩
        · apply h.noDatagram
          rw [← hlocals]
          apply DatagramCall.turn_failed
        · rw [DatagramCall.turn_received, hlocals]
          apply h.deliver hqueue (carries_of_recvmsg hflags)

theorem inv_of_reachable (hs : datagramSocket.Reachable s) : s.Inv := by
  apply hs.invariant
  · constructor
    · use []
      exact ⟨rfl, List.Forall₂.nil⟩
    · intro r hr
      cases hr
    · intro r hr
      cases hr
  · intro action s t hs hstep
    apply hs.step hstep

/-- Datagram receives lose and invent nothing. Whatever arrives between the answers of the
kernel, the calls that return `received` carry the datagrams that have left the queue, one each,
in order, with their peer, their length and the part that fits the buffer, and are `truncated`
exactly when that is not all; only `try_receive_datagram` is not ready, only a spinning receive
is stopped, then without an error and without bytes, and no call returns an interruption. -/
theorem datagrams_exact (hs : datagramSocket.Reachable s) :
  (∃ delivered, s.arrived = delivered ++ s.queue
    ∧ List.Forall₂ DatagramReturn.Carries (s.returned.filter (·.result.received)) delivered)
    ∧ ∀ r ∈ s.returned, r.Sound
  := by
  have h := inv_of_reachable hs
  use h.delivered, h.returned

/-- A spinning receive that is interrupted gets one of two datagrams, and a blocking one the
other, cut to its buffer. -/
def interruptedOnce : List DatagramAction :=
  [.arrive { peer := { family := 2, port := 7, address := 1 }, bytes := [1] },
    .receive (.busySpin fun _ => false) [0, 0], .answer .interrupt,
    .arrive { peer := { family := 2, port := 8, address := 1 }, bytes := [2, 3] },
    .answer (.deliver 0), .receive .blocking [0], .answer (.deliver 0x20)]

theorem datagrams_exact_interruptedOnce :
  ∃ s, datagramSocket.run interruptedOnce datagramSocket.initial = some s
    ∧ s.returned.length = 2
    ∧ ∃ delivered, s.arrived = delivered ++ s.queue
      ∧ List.Forall₂ DatagramReturn.Carries (s.returned.filter (·.result.received)) delivered
  := by
  refine ⟨_, rfl, rfl, ?_⟩
  apply (datagrams_exact ⟨interruptedOnce, rfl⟩).1

end DatagramSocket

end Sockets
