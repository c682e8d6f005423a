import LowLatency.Library.Transition
import LowLatency.Sockets.Stream

/-!
# Message framing over a byte stream

One program sends messages with successive calls of `send_all`, another reads spans of the
same sizes with any of the exact-length receives, resuming a stopped call on the rest of its
span. Between them a byte stream takes any part of what is offered, delivers any part of what
it holds, in order, and interrupts either side at will.
-/

namespace Sockets

/-! ### The stream -/

/-- What the kernel answers a `recv`. -/
inductive RecvAnswer where
  | deliver (count : ℕ)
  | interrupt
  | wouldBlock

/-- The receives a program may mix. -/
inductive ReceiveKind where
  | blocking
  | busySpin
  | busySpinUntil (deadline : ℤ)
  deriving DecidableEq

/-- A turn of a receive, where the stop predicate answers `stopRequested` and the clock reads
`now` if they are consulted. -/
def ReceiveKind.turn (kind : ReceiveKind) (r : Receiving) (stopRequested : Bool) (now : ℤ) :
    RecvOutcome → Turn Receiving StreamReceiveResult :=
  match kind with
  | .blocking => receiveExactBlockingTurn r
  | .busySpin => receiveExactBusySpinTurn r stopRequested
  | .busySpinUntil deadline => receiveExactBusySpinUntilTurn r deadline now

namespace Kernel

/-- The bytes queued after `send` is offered `offered`. -/
def send (queue offered : List Byte) : SendOutcome → Option (List Byte)
  | .sent count => if count ≤ offered.length then some (queue ++ offered.take count) else none
  | .failed _ => some queue

/-- What `recv` returns and what stays queued. Only a receive that does not block is told that
it would. -/
def recv (queue : List Byte) (kind : ReceiveKind) (requested : ℕ) :
    RecvAnswer → Option (RecvOutcome × List Byte)
  | .deliver count =>
      if 0 < count ∧ count ≤ requested ∧ count ≤ queue.length then
        some (.received (queue.take count), queue.drop count)
      else none
  | .interrupt => some (.failed EINTR, queue)
  | .wouldBlock => if kind = .blocking then none else some (.failed EAGAIN, queue)

end Kernel

/-! ### The programs -/

/-- The sending program. `returned` pairs each message with the result of its `send_all`. -/
structure Sender where
  returned : List (List Byte × SendResult)
  call : Option (List Byte × ℕ)
  todo : List (List Byte)

/-- The sender after a turn of `send_all` on `message`. -/
def Sender.settle (s : Sender) (message : List Byte) : Turn ℕ SendResult → Sender
  | .again bytesSent => { s with call := some (message, bytesSent) }
  | .done _ result => { s with call := none, returned := s.returned ++ [(message, result)] }

/-- A span being read: `offset` bytes of it are filled by calls that have stopped, and the
call under way, if any, works on the rest. -/
structure Reading where
  span : List Byte
  offset : ℕ
  call : Option (ReceiveKind × Receiving)

/-- The receiving program: the messages it has obtained, the span it is reading and the spans
it will read. -/
structure Receiver where
  obtained : List (List Byte)
  reading : Option Reading
  todo : List (List Byte)

/-- The receiver after a turn of a receive. -/
def Receiver.settle (r : Receiver) (reading : Reading) (kind : ReceiveKind) :
    Turn Receiving StreamReceiveResult → Receiver
  | .again l => { r with reading := some { reading with call := some (kind, l) } }
  | .done l result =>
      let span := reading.span.take reading.offset ++ l.bytes
      if result.complete then { r with obtained := r.obtained ++ [span], reading := none }
      else
        { r with
          reading := some
            { span := span, offset := reading.offset + result.bytesReceived, call := none } }

/-- The two programs and the bytes queued between them. -/
structure Connection where
  sender : Sender
  queue : List Byte
  receiver : Receiver

/-- What may happen: a program begins a call, or the kernel answers a call under way. -/
inductive ConnectionAction where
  | beginSend
  | send (outcome : SendOutcome)
  | beginReceive (kind : ReceiveKind)
  | receive (answer : RecvAnswer) (stopRequested : Bool) (now : ℤ)

namespace Connection

/-- The beginning of the next `send_all`. -/
def beginSend (c : Connection) : Option Connection :=
  match c.sender.call, c.sender.todo with
  | none, message :: rest =>
      some { c with
        sender := { c.sender with todo := rest }.settle message (sendAllHead message 0) }
  | _, _ => none

/-- A turn of the `send_all` under way. -/
def send (c : Connection) (outcome : SendOutcome) : Option Connection :=
  match c.sender.call with
  | none => none
  | some (message, bytesSent) =>
      (Kernel.send c.queue (message.drop bytesSent) outcome).map fun queue =>
        { c with
          sender := c.sender.settle message (sendAllTurn message bytesSent outcome)
          queue := queue }

/-- The beginning of a receive, on the next span or on the rest of the span a stopped call
has left. -/
def beginReceive (c : Connection) (kind : ReceiveKind) : Option Connection :=
  match c.receiver.reading, c.receiver.todo with
  | none, span :: rest =>
      some { c with
        receiver := { c.receiver with todo := rest }.settle
          { span := span, offset := 0, call := none } kind
          (receiveExactHead { bytes := span, bytesReceived := 0 }) }
  | some { span := span, offset := offset, call := none }, _ =>
      some { c with
        receiver := c.receiver.settle { span := span, offset := offset, call := none } kind
          (receiveExactHead { bytes := span.drop offset, bytesReceived := 0 }) }
  | _, _ => none

/-- A turn of the receive under way. -/
def receive (c : Connection) (answer : RecvAnswer) (stopRequested : Bool) (now : ℤ) :
    Option Connection :=
  match c.receiver.reading with
  | some { span := span, offset := offset, call := some (kind, l) } =>
      (Kernel.recv c.queue kind l.requested answer).map fun (outcome, queue) =>
        { c with
          queue := queue
          receiver := c.receiver.settle
            { span := span, offset := offset, call := some (kind, l) } kind
            (kind.turn l stopRequested now outcome) }
  | _ => none

def step (c : Connection) : ConnectionAction → Option Connection
  | .beginSend => c.beginSend
  | .send outcome => c.send outcome
  | .beginReceive kind => c.beginReceive kind
  | .receive answer stopRequested now => c.receive answer stopRequested now

end Connection

/-- The transfer of `messages` into `spans`. -/
def transfer (messages spans : List (List Byte)) :
    TransitionSystem Connection ConnectionAction where
  initial :=
    { sender := { returned := [], call := none, todo := messages }
      queue := []
      receiver := { obtained := [], reading := none, todo := spans } }
  step action c := c.step action

/-! ### What is sent -/

namespace Sender

/-- The messages whose `send_all` has returned. -/
def finished (s : Sender) : List (List Byte) :=
  s.returned.map Prod.fst

/-- The bytes of the message under way that are sent. -/
def underWay (s : Sender) : List Byte :=
  match s.call with
  | none => []
  | some (message, bytesSent) => message.take bytesSent

/-- The bytes sent. -/
def sent (s : Sender) : List Byte :=
  s.finished.flatten ++ s.underWay

/-- Every `send_all` that has returned reports `complete`. -/
def AllComplete (s : Sender) : Prop :=
  ∀ x ∈ s.returned, x.2.complete x.1.length = true

/-- The messages finished, under way and to be sent are `messages`. -/
structure Inv (messages : List (List Byte)) (s : Sender) : Prop where
  messages : s.finished ++ (s.call.map Prod.fst).toList ++ s.todo = messages
  bytesSent : ∀ x ∈ s.call, x.2 ≤ x.1.length

variable {s : Sender} {messages : List (List Byte)} {message : List Byte} {bytesSent : ℕ}

/-- The head of the loop of `send_all` sends nothing more. -/
theorem sent_settle_head (s : Sender) (h : bytesSent ≤ message.length) :
  (s.settle message (sendAllHead message bytesSent)).sent
    = s.finished.flatten ++ message.take bytesSent
  := by
  rw [sendAllHead]
  split_ifs with hlt
  · rfl
  · obtain rfl : bytesSent = message.length := by omega
    simp [settle, sent, finished, underWay]

theorem inv_settle_head (h : bytesSent ≤ message.length)
    (hmessages : s.finished ++ message :: s.todo = messages) :
  (s.settle message (sendAllHead message bytesSent)).Inv messages
  := by
  rw [sendAllHead]
  split_ifs with hlt
  · constructor
    · rw [← hmessages]
      simp [settle, finished]
    · intro x hx
      obtain rfl := Option.some.inj hx
      apply h
  · constructor
    · rw [← hmessages]
      simp [settle, finished]
    · intro x hx
      cases hx

/-- The bytes sent are a prefix of those of the messages. -/
theorem Inv.sent_isPrefix (h : s.Inv messages) :
  s.sent <+: messages.flatten
  := by
  rw [← h.messages, List.append_assoc, List.flatten_append, sent,
    List.prefix_append_right_inj]
  cases hcall : s.call with
  | none =>
      simp only [underWay, hcall]
      apply List.nil_prefix
  | some x =>
      simp only [underWay, hcall, Option.map_some, Option.toList_some, List.cons_append,
        List.nil_append, List.flatten_cons]
      apply (List.take_prefix _ _).trans (List.prefix_append _ _)

theorem AllComplete.of_settle {turn : Turn ℕ SendResult}
    (h : (s.settle message turn).AllComplete) :
  s.AllComplete
  := by
  cases turn with
  | again bytesSent => apply h
  | done bytesSent result =>
      intro x hx
      apply h
      apply List.mem_append_left _ hx

end Sender

/-! ### What is received -/

/-- The bytes of a span that are received. -/
def Reading.received (reading : Reading) : List Byte :=
  match reading.call with
  | none => reading.span.take reading.offset
  | some (_, l) => reading.span.take reading.offset ++ l.bytes.take l.bytesReceived

/-- A receive on `l` works on the rest of the span. -/
structure Reading.Rest (reading : Reading) (l : Receiving) : Prop where
  length : reading.offset + l.bytes.length = reading.span.length
  bytesReceived_le : l.bytesReceived ≤ l.bytes.length

/-- The part of the span filled, and the call under way on the rest of it. -/
structure Reading.Inv (reading : Reading) : Prop where
  offset_le : reading.offset ≤ reading.span.length
  call : ∀ x ∈ reading.call, reading.Rest x.2

/-- No more is received into a span than it holds. -/
theorem Reading.Inv.length_received {reading : Reading} (h : reading.Inv) :
  reading.received.length ≤ reading.span.length
  := by
  have hoffset := h.offset_le
  rw [received]
  cases hcall : reading.call with
  | none =>
      simp only [List.length_take]
      omega
  | some x =>
      have hlength := (h.call x hcall).length
      simp only [List.length_append, List.length_take]
      omega

namespace Receiver

/-- The bytes of the span being read that are received. -/
def underWay (r : Receiver) : List Byte :=
  match r.reading with
  | none => []
  | some reading => reading.received

/-- The bytes received. -/
def received (r : Receiver) : List Byte :=
  r.obtained.flatten ++ r.underWay

/-- The spans filled, being read and to be read have the lengths `sizes`. -/
structure Inv (sizes : List ℕ) (r : Receiver) : Prop where
  sizes : r.obtained.map List.length ++ (r.reading.map (·.span.length)).toList
    ++ r.todo.map List.length = sizes
  reading : ∀ reading ∈ r.reading, reading.Inv

variable {r : Receiver} {reading : Reading} {kind : ReceiveKind} {l : Receiving}
  {sizes : List ℕ}

/-- The return of a receive that is not complete receives nothing more. -/
theorem received_settle_finish (r : Receiver) (kind : ReceiveKind) (hl : reading.Rest l)
    {state : StreamReceiveState} {error : Option Errno} (hstate : state ≠ .complete) :
  (r.settle reading kind (l.finish state error)).received
    = r.obtained.flatten ++ (reading.span.take reading.offset ++ l.bytes.take l.bytesReceived)
  := by
  have hlength := hl.length
  have htake : (reading.span.take reading.offset ++ l.bytes).take
      (reading.offset + l.bytesReceived)
        = reading.span.take reading.offset ++ l.bytes.take l.bytesReceived := by
    rw [List.take_append, List.take_of_length_le, List.length_take_of_le (by omega),
      Nat.add_sub_cancel_left]
    rw [List.length_take_of_le (by omega)]
    omega
  simp only [Receiving.finish, settle, StreamReceiveResult.complete, hstate, decide_false,
    Bool.false_eq_true, if_false, received, underWay, Reading.received, htake]

/-- The head of the loop of a receive receives nothing more. -/
theorem received_settle_head (r : Receiver) (hl : reading.Rest l) :
  (r.settle reading kind (receiveExactHead l)).received
    = r.obtained.flatten ++ (reading.span.take reading.offset ++ l.bytes.take l.bytesReceived)
  := by
  rw [receiveExactHead]
  split_ifs with hlt
  · rfl
  · have hle := hl.bytesReceived_le
    obtain hfull : l.bytesReceived = l.bytes.length := by omega
    simp [Receiving.finish, settle, StreamReceiveResult.complete, received, underWay, hfull]

theorem inv_settle_finish (kind : ReceiveKind) (hl : reading.Rest l)
    {state : StreamReceiveState} {error : Option Errno} (hstate : state ≠ .complete)
    (hsizes : r.obtained.map List.length ++ reading.span.length :: r.todo.map List.length
      = sizes) :
  (r.settle reading kind (l.finish state error)).Inv sizes
  := by
  have hlength := hl.length
  have hle := hl.bytesReceived_le
  have hspan : (reading.span.take reading.offset ++ l.bytes).length = reading.span.length := by
    rw [List.length_append, List.length_take_of_le (by omega)]
    omega
  simp only [Receiving.finish, settle, StreamReceiveResult.complete, hstate, decide_false,
    Bool.false_eq_true, if_false]
  constructor
  · rw [← hsizes]
    simp [hspan]
  · intro reading' h
    obtain rfl := Option.some.inj h
    constructor
    · simp only [hspan]
      omega
    · intro x hx
      cases hx

theorem inv_settle_head (hl : reading.Rest l)
    (hsizes : r.obtained.map List.length ++ reading.span.length :: r.todo.map List.length
      = sizes) :
  (r.settle reading kind (receiveExactHead l)).Inv sizes
  := by
  have hlength := hl.length
  have hspan : (reading.span.take reading.offset ++ l.bytes).length = reading.span.length := by
    rw [List.length_append, List.length_take_of_le (by omega)]
    omega
  rw [receiveExactHead]
  split_ifs with hlt
  · constructor
    · rw [← hsizes]
      simp [settle]
    · intro reading' h
      obtain rfl := Option.some.inj h
      constructor
      · simp only
        omega
      · intro x hx
        obtain rfl := Option.some.inj hx
        exact ⟨hl.length, hl.bytesReceived_le⟩
  · simp only [Receiving.finish, settle, StreamReceiveResult.complete, decide_true, if_true]
    constructor
    · rw [← hsizes]
      simp only [List.map_append, List.map_cons, List.map_nil, hspan, Option.map_none,
        Option.toList_none, List.append_nil, List.append_assoc, List.cons_append,
        List.nil_append]
    · intro reading' h
      cases h

end Receiver

/-! ### The turns of a receive -/

section Turns

variable {kind : ReceiveKind} {l : Receiving} {stopRequested : Bool} {now : ℤ}

/-- A turn that is given bytes fills them in. -/
theorem turn_received {bytes : List Byte} (h : 0 < bytes.length) :
  kind.turn l stopRequested now (.received bytes) = receiveExactHead (l.fill bytes)
  := by
  cases kind with
  | blocking => rw [ReceiveKind.turn, receiveExactBlockingTurn, if_pos h]
  | busySpin => rw [ReceiveKind.turn, receiveExactBusySpinTurn, if_pos h]
  | busySpinUntil deadline =>
      rw [ReceiveKind.turn, receiveExactBusySpinUntilTurn, receiveExactBusySpinTurn, if_pos h]

/-- A turn that is interrupted, or would block, goes on or stops. -/
theorem turn_failed {errno : Errno}
    (h : errno = EINTR ∨ kind ≠ .blocking ∧ errno = EAGAIN) :
  kind.turn l stopRequested now (.failed errno) = receiveExactHead l
    ∨ kind.turn l stopRequested now (.failed errno) = l.finish .stopped none
  := by
  have hspin : ∀ stop, receiveExactBusySpinTurn l stop (.failed errno) = receiveExactHead l
      ∨ receiveExactBusySpinTurn l stop (.failed errno) = l.finish .stopped none := by
    intro stop
    rw [receiveExactBusySpinTurn]
    rcases h with rfl | ⟨-, rfl⟩
    · cases stop with
      | true => simp
      | false => simp
    · cases stop with
      | true => simp [EAGAIN, EINTR]
      | false => simp [EAGAIN, EINTR]
  cases kind with
  | blocking =>
      rcases h with rfl | ⟨hkind, -⟩
      · left
        rw [ReceiveKind.turn, receiveExactBlockingTurn, if_pos rfl]
      · cases hkind rfl
  | busySpin => apply hspin
  | busySpinUntil deadline => apply hspin

/-- Filling in bytes that were requested keeps to the rest of the span. -/
theorem Reading.Rest.fill {reading : Reading} (hl : reading.Rest l) {bytes : List Byte}
    (h : bytes.length ≤ l.requested) :
  reading.Rest (l.fill bytes)
    ∧ (l.fill bytes).bytes.take (l.fill bytes).bytesReceived
        = l.bytes.take l.bytesReceived ++ bytes
  := by
  have hle := hl.bytesReceived_le
  rw [Receiving.requested] at h
  have hlength : (l.fill bytes).bytes.length = l.bytes.length := Span.length_write (by omega)
  constructor
  · constructor
    · rw [hlength]
      apply hl.length
    · rw [hlength, Receiving.fill]
      simp only
      omega
  · apply Span.take_write hle

end Turns

/-! ### The invariant of the transfer -/

namespace Connection

variable {messages : List (List Byte)} {sizes : List ℕ} {c c' : Connection}

/-- What is sent is received or queued, as long as every `send_all` reports `complete`. -/
structure Inv (messages : List (List Byte)) (sizes : List ℕ) (c : Connection) : Prop where
  sender : c.sender.Inv messages
  receiver : c.receiver.Inv sizes
  stream : c.sender.AllComplete → c.sender.sent = c.receiver.received ++ c.queue

theorem Inv.beginSend (h : c.Inv messages sizes) (hstep : c.beginSend = some c') :
  c'.Inv messages sizes
  := by
  have hmessages := h.sender.messages
  simp only [Connection.beginSend] at hstep
  split at hstep
  case h_2 => cases hstep
  case h_1 message rest hcall htodo =>
    obtain rfl := Option.some.inj hstep
    rw [hcall, htodo] at hmessages
    simp only [Option.map_none, Option.toList_none, List.append_nil] at hmessages
    constructor
    · apply Sender.inv_settle_head (Nat.zero_le _)
      apply hmessages
    · apply h.receiver
    · intro hcomplete
      have hstream := h.stream hcomplete.of_settle
      rw [Sender.sent, Sender.underWay, hcall] at hstream
      rw [Sender.sent_settle_head _ (Nat.zero_le _), List.take_zero, ← hstream]
      rfl

theorem Inv.send {outcome : SendOutcome} (h : c.Inv messages sizes)
    (hstep : c.send outcome = some c') :
  c'.Inv messages sizes
  := by
  have hmessages := h.sender.messages
  simp only [Connection.send] at hstep
  split at hstep
  case h_1 => cases hstep
  case h_2 message bytesSent hcall =>
    have hle : bytesSent ≤ message.length := h.sender.bytesSent _ hcall
    rw [hcall] at hmessages
    simp only [Option.map_some, Option.toList_some, List.append_assoc, List.singleton_append]
      at hmessages
    obtain ⟨queue, hqueue, rfl⟩ := Option.map_eq_some_iff.mp hstep
    have hbefore : c.sender.AllComplete →
        c.sender.finished.flatten ++ message.take bytesSent = c.receiver.received ++ c.queue := by
      intro hcomplete
      rw [← h.stream hcomplete, Sender.sent, Sender.underWay, hcall]
    -- a call that returns an error is not complete, so only the two ways to go on are left
    have herror : ∀ n errno,
        (c.sender.settle message (.done n { bytesSent := n, error := some errno })).Inv messages
          ∧ ¬(c.sender.settle message
              (.done n { bytesSent := n, error := some errno })).AllComplete := by
      intro n errno
      constructor
      · constructor
        · rw [← hmessages]
          simp [Sender.settle, Sender.finished]
        · intro x hx
          cases hx
      · intro hcomplete
        have := hcomplete (message, { bytesSent := n, error := some errno }) (by
          simp [Sender.settle])
        simp [SendResult.complete] at this
    cases outcome with
    | sent count =>
        simp only [Kernel.send, List.length_drop] at hqueue
        split_ifs at hqueue with hcount
        obtain rfl := Option.some.inj hqueue
        rw [sendAllTurn]
        split_ifs with hpos
        · constructor
          · apply Sender.inv_settle_head _ hmessages
            omega
          · apply h.receiver
          · intro hcomplete
            rw [Sender.sent_settle_head _ (by omega), List.take_add, ← List.append_assoc,
              hbefore hcomplete.of_settle, List.append_assoc]
        · constructor
          · apply (herror _ _).1
          · apply h.receiver
          · intro hcomplete
            cases (herror _ _).2 hcomplete
    | failed errno =>
        obtain rfl := Option.some.inj hqueue
        rw [sendAllTurn]
        split_ifs with hinterrupted
        · constructor
          · apply Sender.inv_settle_head hle hmessages
          · apply h.receiver
          · intro hcomplete
            rw [Sender.sent_settle_head _ hle, hbefore hcomplete.of_settle]
        · constructor
          · apply (herror _ _).1
          · apply h.receiver
          · intro hcomplete
            cases (herror _ _).2 hcomplete

theorem Inv.beginReceive {kind : ReceiveKind} (h : c.Inv messages sizes)
    (hstep : c.beginReceive kind = some c') :
  c'.Inv messages sizes
  := by
  have hsizes := h.receiver.sizes
  have hstream := h.stream
  simp only [Connection.beginReceive] at hstep
  split at hstep
  case h_3 => cases hstep
  case h_1 span rest hreading htodo =>
    obtain rfl := Option.some.inj hstep
    rw [hreading, htodo] at hsizes
    simp only [Option.map_none, Option.toList_none, List.append_nil, List.map_cons] at hsizes
    have hrest : Reading.Rest { span := span, offset := 0, call := none }
        { bytes := span, bytesReceived := 0 } := ⟨Nat.zero_add _, Nat.zero_le _⟩
    constructor
    · apply h.sender
    · apply Receiver.inv_settle_head hrest hsizes
    · intro hcomplete
      rw [hstream hcomplete, Receiver.received_settle_head _ hrest, Receiver.received,
        Receiver.underWay, hreading]
      rfl
  case h_2 span offset hreading =>
    obtain rfl := Option.some.inj hstep
    rw [hreading] at hsizes
    simp only [Option.map_some, Option.toList_some, List.append_assoc, List.singleton_append]
      at hsizes
    have hle : offset ≤ span.length := (h.receiver.reading _ hreading).offset_le
    have hrest : Reading.Rest { span := span, offset := offset, call := none }
        { bytes := span.drop offset, bytesReceived := 0 } := by
      constructor
      · simp only [List.length_drop]
        omega
      · apply Nat.zero_le
    constructor
    · apply h.sender
    · apply Receiver.inv_settle_head hrest hsizes
    · intro hcomplete
      rw [hstream hcomplete, Receiver.received_settle_head _ hrest, Receiver.received,
        Receiver.underWay, hreading]
      simp only [Reading.received, List.take_zero, List.append_nil]

theorem Inv.receive {answer : RecvAnswer} {stopRequested : Bool} {now : ℤ}
    (h : c.Inv messages sizes) (hstep : c.receive answer stopRequested now = some c') :
  c'.Inv messages sizes
  := by
  have hsizes := h.receiver.sizes
  have hstream := h.stream
  simp only [Connection.receive] at hstep
  split at hstep
  case h_2 => cases hstep
  case h_1 span offset kind l hreading =>
    obtain ⟨⟨outcome, queue⟩, hrecv, rfl⟩ := Option.map_eq_some_iff.mp hstep
    rw [hreading] at hsizes
    simp only [Option.map_some, Option.toList_some, List.append_assoc, List.singleton_append]
      at hsizes
    have hrest : Reading.Rest { span := span, offset := offset, call := some (kind, l) } l :=
      (h.receiver.reading _ hreading).call _ rfl
    have hreceived : c.receiver.received
        = c.receiver.obtained.flatten ++ (span.take offset ++ l.bytes.take l.bytesReceived) := by
      rw [Receiver.received, Receiver.underWay, hreading]
      rfl
    have hstopped : StreamReceiveState.stopped ≠ .complete := by decide
    -- an interrupted turn leaves the stream
    have hfailed : ∀ errno, errno = EINTR ∨ kind ≠ .blocking ∧ errno = EAGAIN →
        (Connection.mk c.sender c.queue (c.receiver.settle
          { span := span, offset := offset, call := some (kind, l) } kind
          (kind.turn l stopRequested now (.failed errno)))).Inv messages sizes := by
      intro errno herrno
      rcases turn_failed herrno with hturn | hturn
      · rw [hturn]
        constructor
        · apply h.sender
        · apply Receiver.inv_settle_head hrest hsizes
        · intro hcomplete
          rw [hstream hcomplete, hreceived, Receiver.received_settle_head _ hrest]
      · rw [hturn]
        constructor
        · apply h.sender
        · apply Receiver.inv_settle_finish kind hrest hstopped hsizes
        · intro hcomplete
          rw [hstream hcomplete, hreceived,
            Receiver.received_settle_finish c.receiver kind hrest hstopped]
    cases answer with
    | deliver count =>
        simp only [Kernel.recv] at hrecv
        split_ifs at hrecv with hcount
        obtain ⟨rfl, rfl⟩ := Prod.mk.inj (Option.some.inj hrecv)
        obtain ⟨hpos, hrequested, hqueued⟩ := hcount
        have hlength : (c.queue.take count).length = count := List.length_take_of_le hqueued
        have hle : (c.queue.take count).length ≤ l.requested := by omega
        obtain ⟨hfill, htake⟩ := hrest.fill hle
        rw [turn_received (by omega)]
        constructor
        · apply h.sender
        · apply Receiver.inv_settle_head ⟨hfill.length, hfill.bytesReceived_le⟩ hsizes
        · intro hcomplete
          rw [hstream hcomplete, hreceived,
            Receiver.received_settle_head _ ⟨hfill.length, hfill.bytesReceived_le⟩, htake]
          simp only [List.append_assoc, List.take_append_drop]
    | interrupt =>
        obtain ⟨rfl, rfl⟩ := Prod.mk.inj (Option.some.inj hrecv)
        apply hfailed
        left
        rfl
    | wouldBlock =>
        simp only [Kernel.recv] at hrecv
        split_ifs at hrecv with hkind
        obtain ⟨rfl, rfl⟩ := Prod.mk.inj (Option.some.inj hrecv)
        apply hfailed
        right
        use hkind

/-- Every step keeps the invariant. -/
theorem Inv.step {action : ConnectionAction} (h : c.Inv messages sizes)
    (hstep : c.step action = some c') :
  c'.Inv messages sizes
  := by
  cases action with
  | beginSend => apply h.beginSend hstep
  | send outcome => apply h.send hstep
  | beginReceive kind => apply h.beginReceive hstep
  | receive answer stopRequested now => apply h.receive hstep

theorem inv_of_reachable {spans : List (List Byte)}
    (h : (transfer messages spans).Reachable c) :
  c.Inv messages (spans.map List.length)
  := by
  apply h.invariant
  · constructor
    · constructor
      · rfl
      · intro x hx
        cases hx
    · constructor
      · rfl
      · intro reading hreading
        cases hreading
    · intro _
      rfl
  · intro action s t hs hstep
    apply Inv.step hs hstep

/-- Message framing is exact. Whatever the stream takes and delivers at a time, whoever is
interrupted and wherever calls are stopped and resumed, as long as every `send_all` that has
returned reports `complete`: the bytes sent are the bytes received followed by those queued;
the spans filled are the first messages, and the span being read holds a part of the next one;
and once every span is filled, they are the messages. -/
theorem framing_exact {spans : List (List Byte)}
    (hsizes : spans.map List.length = messages.map List.length)
    (hc : (transfer messages spans).Reachable c) (hcomplete : c.sender.AllComplete) :
  c.sender.sent = c.receiver.received ++ c.queue
    ∧ c.receiver.obtained <+: messages
    ∧ (∀ reading ∈ c.receiver.reading, ∃ message,
        messages[c.receiver.obtained.length]? = some message
          ∧ reading.span.length = message.length ∧ reading.received <+: message)
    ∧ (c.receiver.reading = none → c.receiver.todo = [] → c.receiver.obtained = messages)
  := by
  have h := inv_of_reachable hc
  have hstream := h.stream hcomplete
  have hlengths := h.receiver.sizes
  rw [hsizes] at hlengths
  have hreceived : c.receiver.received <+: messages.flatten := by
    apply List.IsPrefix.trans _ h.sender.sent_isPrefix
    rw [hstream]
    apply List.prefix_append
  have hobtained : c.receiver.obtained <+: messages := by
    apply Span.prefix_of_flatten
    · apply List.IsPrefix.trans _ hreceived
      apply List.prefix_append
    · rw [← hlengths, List.append_assoc]
      apply List.prefix_append
  use hstream, hobtained
  obtain ⟨rest, rfl⟩ := hobtained
  rw [List.map_append, List.append_assoc, List.append_cancel_left_eq] at hlengths
  constructor
  · intro reading hreading
    rw [Option.mem_def] at hreading
    rw [hreading] at hlengths
    rw [Receiver.received, Receiver.underWay, hreading, List.flatten_append,
      List.prefix_append_right_inj] at hreceived
    cases rest with
    | nil => cases hlengths
    | cons message rest =>
        use message
        constructor
        · rw [List.getElem?_append_right (Nat.le_refl _), Nat.sub_self]
          rfl
        obtain ⟨hlength, -⟩ := List.cons.inj hlengths
        use hlength
        rw [List.flatten_cons] at hreceived
        apply List.prefix_of_prefix_length_le hreceived (List.prefix_append _ _)
        rw [← hlength]
        apply (h.receiver.reading _ hreading).length_received
  · intro hreading htodo
    rw [hreading, htodo] at hlengths
    rw [List.eq_nil_of_map_eq_nil hlengths.symm, List.append_nil]

/-- A message of three bytes is sent in two parts, and read by a spinning receive that stops
after one byte and a blocking one that takes the rest. -/
def stoppedOnce : List ConnectionAction :=
  [.beginSend, .send (.sent 2), .send (.failed EINTR), .beginReceive .busySpin,
    .receive (.deliver 1) false 0, .receive .wouldBlock true 0, .beginReceive .blocking,
    .receive (.deliver 1) false 0, .send (.sent 1), .receive .interrupt false 0,
    .receive (.deliver 1) false 0]

theorem framing_exact_stoppedOnce :
  ∃ c, (transfer [[1, 2, 3]] [[0, 0, 0]]).run stoppedOnce (transfer [[1, 2, 3]] [[0, 0, 0]]).initial
      = some c
    ∧ c.receiver.obtained = [[1, 2, 3]]
  := by
  refine ⟨_, rfl, ?_⟩
  apply (framing_exact rfl ⟨stoppedOnce, rfl⟩ _).2.2.2 rfl rfl
  intro x hx
  obtain rfl := List.mem_singleton.mp hx
  rfl

end Connection

end Sockets
