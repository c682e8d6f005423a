import LowLatency.Library.Flags
import LowLatency.Sockets.Stream
import LowLatency.SocketLatency.Configuration

/-!
# The wire format of the socket benchmark

A message begins with a header of eight bytes: a magic number, a version, the protocol and the
sequence, with numbers in network order. The rest is a pattern which depends on the position
only.
-/

namespace SocketLatency

open Sockets (Byte)

def messageMagic : UInt16 := 0x4c53

def messageVersion : Byte := 1

/-- The number of a protocol on the wire. -/
def Protocol.code : Protocol → Byte
  | .tcp => 1
  | .udp => 2

/-! ### Network order -/

def toNetwork16 (x : UInt16) : List Byte := [(x >>> 8).toUInt8, x.toUInt8]

def toNetwork32 (x : UInt32) : List Byte :=
  [(x >>> 24).toUInt8, (x >>> 16).toUInt8, (x >>> 8).toUInt8, x.toUInt8]

/-- The number whose bytes in network order are `bytes`. -/
def fromNetwork (bytes : List Byte) : ℕ :=
  bytes.foldl (fun n byte => n * 256 + byte.toNat) 0

/-! ### Messages -/

def writeHeader (bytes : List Byte) (selectedProtocol : Protocol) (sequence : UInt32) :
    Except String (List Byte) :=
  if bytes.length < 8 then .error "wire message is smaller than its header"
  else
    let bytes := Span.write bytes 0 (toNetwork16 messageMagic)
    let bytes := Span.write bytes 2 [messageVersion]
    let bytes := Span.write bytes 3 [selectedProtocol.code]
    .ok (Span.write bytes 4 (toNetwork32 sequence))

/-- The header of sequence zero and the pattern. -/
def initializeMessage (bytes : List Byte) (selectedProtocol : Protocol) :
    Except String (List Byte) :=
  (writeHeader bytes selectedProtocol 0).map fun bytes =>
    bytes.mapIdx fun index byte =>
      if index < 8 then byte else UInt8.ofNat ((index * 17 + 0xa5) % 256)

def readSequence (bytes : List Byte) (expectedProtocol : Protocol) : Except String UInt32 :=
  if bytes.length < 8 then .error "received message is smaller than its header"
  else if fromNetwork (bytes.take 2) ≠ messageMagic.toNat ∨ bytes.getD 2 0 ≠ messageVersion ∨
      bytes.getD 3 0 ≠ expectedProtocol.code then
    .error "received message header is invalid"
  else .ok (UInt32.ofNat (fromNetwork ((bytes.drop 4).take 4)))

def updateChecksum (checksum : UInt64) (sequence : UInt32) (payloadBytes : ℕ)
    (selectedProtocol : Protocol) : UInt64 :=
  (checksum ^^^ (sequence.toUInt64 + UInt64.ofNat payloadBytes * 257
    + selectedProtocol.code.toUInt64)) * 1099511628211

/-- The header of a message. -/
def header (selectedProtocol : Protocol) (sequence : UInt32) : List Byte :=
  toNetwork16 messageMagic ++ [messageVersion] ++ [selectedProtocol.code] ++ toNetwork32 sequence

/-- The bytes of a message behind its header. -/
def pattern (payloadBytes : ℕ) : List Byte :=
  ((List.range payloadBytes).map fun index => UInt8.ofNat ((index * 17 + 0xa5) % 256)).drop 8

/-- Writing a header replaces the first eight bytes. -/
theorem writeHeader_eq {bytes : List Byte} (h : 8 ≤ bytes.length) (selectedProtocol : Protocol)
    (sequence : UInt32) :
  writeHeader bytes selectedProtocol sequence
    = .ok (header selectedProtocol sequence ++ bytes.drop 8)
  := by
  have hmagic : Span.write bytes 0 (toNetwork16 messageMagic)
      = toNetwork16 messageMagic ++ bytes.drop 2 := by
    simp [Span.write, toNetwork16]
  simp only [writeHeader, if_neg (Nat.not_lt.mpr h), hmagic]
  rw [Span.write_append (by rfl), Span.write_append (by rfl), Span.write_append (by rfl), header,
    List.drop_drop, List.drop_drop, List.drop_drop]
  rfl

/-- A header has eight bytes. -/
theorem length_header (selectedProtocol : Protocol) (sequence : UInt32) :
  (header selectedProtocol sequence).length = 8
  := rfl

/-- A message that is initialised has the pattern behind its header. -/
theorem initializeMessage_eq {bytes : List Byte} (h : 8 ≤ bytes.length)
    (selectedProtocol : Protocol) :
  initializeMessage bytes selectedProtocol
    = .ok (header selectedProtocol 0 ++ pattern bytes.length)
  := by
  rw [initializeMessage, writeHeader_eq h]
  simp only [Except.map]
  congr 1
  have hheader := length_header selectedProtocol 0
  apply List.ext_getElem
  · simp [hheader, pattern]
  · intro i hi hi'
    rw [List.getElem_mapIdx]
    split_ifs with hlt
    · rw [List.getElem_append_left (by omega), List.getElem_append_left (by omega)]
    · rw [List.getElem_append_right (by omega)]
      simp only [pattern, List.getElem_drop, List.getElem_map, List.getElem_range, hheader]
      rw [Nat.add_sub_cancel' (by omega)]

/-! ### Datagrams -/

section Datagrams

variable {Address : Type}

/-- A datagram on its way. -/
structure Datagram (Address : Type) where
  source : Address
  destination : Address
  bytes : List Byte
  deriving DecidableEq

/-- What `recvmsg` reports of a datagram. -/
structure ReceivedDatagram (Address : Type) where
  bytes : ℕ
  peer : Address
  truncated : Bool

/-- What `recvmsg` with `MSG_TRUNC` reports, and the buffer after it. -/
def recvmsg (buffer : List Byte) (datagram : Datagram Address) :
    ReceivedDatagram Address × List Byte :=
  ({ bytes := datagram.bytes.length
     peer := datagram.source
     truncated := buffer.length < datagram.bytes.length },
    Span.write buffer 0 (datagram.bytes.take buffer.length))

/-- A datagram as long as the buffer fills it. -/
theorem recvmsg_eq {buffer : List Byte} {datagram : Datagram Address}
    (h : (recvmsg buffer datagram).1.bytes = buffer.length) :
  (recvmsg buffer datagram).2 = datagram.bytes
  := by
  have hlength : datagram.bytes.length = buffer.length := h
  simp only [recvmsg, Span.write, List.take_zero, List.nil_append, Nat.zero_add]
  rw [List.take_of_length_le (by omega), List.drop_eq_nil_of_le (by omega), List.append_nil]

/-- The buffer keeps its length. -/
theorem length_recvmsg (buffer : List Byte) (datagram : Datagram Address) :
  (recvmsg buffer datagram).2.length = buffer.length
  := by
  apply Span.length_write
  rw [List.length_take]
  omega

end Datagrams

/-! ### Arrivals -/

/-- What one end records of the measured sequences that arrive. -/
structure Arrivals where
  seen : List Bool
  highWater : Option UInt32
  duplicates : UInt64
  reordered : UInt64

namespace Arrivals

def initial (samples : ℕ) : Arrivals where
  seen := List.replicate samples false
  highWater := none
  duplicates := 0
  reordered := 0

/-- A sequence arrives for the first time. -/
def record (a : Arrivals) (index : ℕ) (observed : UInt32) : Arrivals where
  seen := Flags.raise a.seen index
  highWater := if a.highWater.all (observed > ·) then some observed else a.highWater
  duplicates := a.duplicates
  reordered := if a.highWater.any (observed < ·) then a.reordered + 1 else a.reordered

end Arrivals

end SocketLatency
