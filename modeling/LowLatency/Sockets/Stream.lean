import LowLatency.Library.Span
import Mathlib.Data.Int.Notation

/-!
# Exact-length transfer over a stream socket

The loops of `send_all`, `receive_exact_blocking` and `receive_exact_busy_spin`, one turn at
a time. A turn makes one call of the kernel. What the kernel answers is the input of the
turn, so a loop can be run over any trace of answers, or in any kernel.
-/

namespace Sockets

abbrev Byte : Type := UInt8

/-! ### Errors -/

/-- The values of `errno`. -/
abbrev Errno : Type := ℕ

def EINTR : Errno := 4

def EAGAIN : Errno := 11

def EWOULDBLOCK : Errno := 11

def EPIPE : Errno := 32

/-! ### Results -/

inductive StreamReceiveState where
  | complete
  | stopped
  | peerClosed
  | error
  deriving DecidableEq, Repr

/-- The result of an exact-length receive. An error is there when `error` is not `none`. -/
structure StreamReceiveResult where
  state : StreamReceiveState
  bytesReceived : ℕ
  error : Option Errno
  deriving DecidableEq, Repr

def StreamReceiveResult.complete (result : StreamReceiveResult) : Bool :=
  result.state = .complete

structure SendResult where
  bytesSent : ℕ
  error : Option Errno
  deriving DecidableEq, Repr

def SendResult.complete (result : SendResult) (expectedBytes : ℕ) : Bool :=
  result.error = none ∧ result.bytesSent = expectedBytes

/-- What a turn of a loop leads to: another turn, or the return of a result. -/
inductive Turn (Local Result : Type) where
  | again (l : Local)
  | done (l : Local) (result : Result)

/-! ### Sending -/

/-- What `send` returns: the number of bytes taken, which may be zero, or a failure. -/
inductive SendOutcome where
  | sent (count : ℕ)
  | failed (errno : Errno)

/-- The head of the loop of `send_all`, after `bytesSent` bytes are sent. -/
def sendAllHead (bytes : List Byte) (bytesSent : ℕ) : Turn ℕ SendResult :=
  if bytesSent < bytes.length then .again bytesSent
  else .done bytesSent { bytesSent := bytesSent, error := none }

/-- A turn of `send_all`, which offers the bytes from `bytesSent` on. -/
def sendAllTurn (bytes : List Byte) (bytesSent : ℕ) : SendOutcome → Turn ℕ SendResult
  | .sent count =>
      if count > 0 then sendAllHead bytes (bytesSent + count)
      else .done bytesSent { bytesSent := bytesSent, error := some EPIPE }
  | .failed errno =>
      if errno = EINTR then sendAllHead bytes bytesSent
      else .done bytesSent { bytesSent := bytesSent, error := some errno }

/-! ### Receiving -/

/-- What `recv` returns: bytes, where none are left once the peer has closed, or a failure. -/
inductive RecvOutcome where
  | received (bytes : List Byte)
  | failed (errno : Errno)

/-- The span of a receive and how much of it is filled. -/
structure Receiving where
  bytes : List Byte
  bytesReceived : ℕ

/-- The number of bytes a turn requests. -/
def Receiving.requested (r : Receiving) : ℕ :=
  r.bytes.length - r.bytesReceived

/-- The receive after `recv` has filled in `received`. -/
def Receiving.fill (r : Receiving) (received : List Byte) : Receiving where
  bytes := Span.write r.bytes r.bytesReceived received
  bytesReceived := r.bytesReceived + received.length

/-- The return of a receive in `state`. -/
def Receiving.finish (r : Receiving) (state : StreamReceiveState) (error : Option Errno) :
    Turn Receiving StreamReceiveResult :=
  .done r { state := state, bytesReceived := r.bytesReceived, error := error }

/-- The head of the loop of a receive. -/
def receiveExactHead (r : Receiving) : Turn Receiving StreamReceiveResult :=
  if r.bytesReceived < r.bytes.length then .again r
  else r.finish .complete none

/-- A turn of `receive_exact_blocking`. -/
def receiveExactBlockingTurn (r : Receiving) : RecvOutcome → Turn Receiving StreamReceiveResult
  | .received bytes =>
      if bytes.length > 0 then receiveExactHead (r.fill bytes)
      else r.finish .peerClosed none
  | .failed errno =>
      if errno = EINTR then receiveExactHead r
      else r.finish .error (some errno)

/-- A turn of `receive_exact_busy_spin`, where the predicate answers `stopRequested` if it is
consulted. -/
def receiveExactBusySpinTurn (r : Receiving) (stopRequested : Bool) :
    RecvOutcome → Turn Receiving StreamReceiveResult
  | .received bytes =>
      if bytes.length > 0 then receiveExactHead (r.fill bytes)
      else r.finish .peerClosed none
  | .failed errno =>
      if errno = EINTR then
        if stopRequested then r.finish .stopped none else receiveExactHead r
      else if errno = EAGAIN ∨ errno = EWOULDBLOCK then
        if stopRequested then r.finish .stopped none else receiveExactHead r
      else r.finish .error (some errno)

/-- A turn of `receive_exact_busy_spin_until`, where the clock reads `now` if it is read. -/
def receiveExactBusySpinUntilTurn (r : Receiving) (deadline now : ℤ) :
    RecvOutcome → Turn Receiving StreamReceiveResult :=
  receiveExactBusySpinTurn r (now ≥ deadline)

end Sockets
