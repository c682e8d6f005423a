import LowLatency.Library.Location
import LowLatency.Library.Transition
import LowLatency.Percentiles.Summary
import LowLatency.SocketLatency.ReceiveAll
import LowLatency.SocketLatency.UdpClient

/-!
# A TCP run

The client sends the warm-up messages and then the measured ones over a connection, and waits
for the echo of each before it sends the next. The server thread echoes as many messages. They
share `server_state` and the two directions of the connection, which are byte streams: the
kernel takes any part of what is offered, delivers any part of what it holds, in order, and may
interrupt or fail a call at any time. Once one end is closed, the other finds the end of the
stream behind what is still queued.

A run begins once the client is connected.
-/

namespace SocketLatency

open Sockets (Byte Errno EINTR SendOutcome RecvOutcome Turn)

def tcpSpinSafetyTimeoutNs : UInt64 := 5000000000

/-- The parameters of a TCP run. -/
structure TcpSetup where
  options : Options
  payloadBytes : ℕ
  payloadBytes_mem : payloadBytes ∈ payloadSizes

/-! ### Sending -/

/-- The exceptions of `send_all`. -/
inductive SendFailure where
  | noProgress
  | send (errno : Errno)
  deriving DecidableEq

/-- A turn ends with the exception, or with a return. -/
abbrev SendTurn : Type := Turn ℕ (Except SendFailure Unit)

namespace SendAll

/-- The head of the loop of `send_all`, after `offset` bytes are sent. -/
def head (bytes : List Byte) (offset : ℕ) : SendTurn :=
  if offset < bytes.length then .again offset else .done offset (.ok ())

/-- A turn of `send_all`, which offers the bytes from `offset` on. -/
def turn (bytes : List Byte) (offset : ℕ) : SendOutcome → SendTurn
  | .sent count =>
      if count > 0 then head bytes (offset + count) else .done offset (.error .noProgress)
  | .failed errno =>
      if errno = EINTR then head bytes offset else .done offset (.error (.send errno))

end SendAll

/-! ### The kernel -/

/-- What the kernel answers a `recv`. -/
inductive StreamAnswer where
  | deliver (count : ℕ)
  | endOfStream
  | failed (errno : Errno)

namespace Stream

/-- The bytes queued after `send` is offered `offered`. -/
def send (queue offered : List Byte) : SendOutcome → Option (List Byte)
  | .sent count => if count ≤ offered.length then some (queue ++ offered.take count) else none
  | .failed _ => some queue

/-- What `recv` returns and what stays queued, where the other end may be closed. -/
def recv (queue : List Byte) (closed : Bool) (requested : ℕ) :
    StreamAnswer → Option (RecvOutcome × List Byte)
  | .deliver count =>
      if 0 < count ∧ count ≤ requested ∧ count ≤ queue.length then
        some (.received (queue.take count), queue.drop count)
      else none
  | .endOfStream => if closed ∧ queue = [] then some (.received [], queue) else none
  | .failed errno => some (.failed errno, queue)

end Stream

/-! ### Exceptions and results -/

/-- The exceptions of a TCP run. Those of `system` are thrown around other calls of the
kernel. -/
inductive TcpFailure where
  | system (operation : String)
  | wire (message : String)
  | send (failure : SendFailure)
  | receive (failure : ReceiveFailure)
  | sequenceRange
  | warmupPayload
  | nonPositiveSample
  | duplicateResponse
  | reorderedResponse
  | measuredPayload
  | serverMessages
  | checksum
  | noSample
  deriving DecidableEq

/-- The part of `run_result` that a TCP run accounts for and measures. The latencies are there
unless a percentile lies outside the samples. -/
structure TcpResult where
  accounting : RunResult
  latencies : Option Latencies

/-! ### The server -/

/-- Where the server is. It is at `counting` when the echo is sent and not counted. At `failing`
an exception has closed the connection and is not yet reported. -/
inductive TcpServerPc where
  | starting
  | receiving (index : ℕ) (r : ReceiveAll)
  | sending (index offset : ℕ)
  | counting (index : ℕ)
  | leaving
  | finished
  | failing (failure : TcpFailure)
  | failed (failure : TcpFailure)

/-- The server's end of the connection is closed. -/
def TcpServerPc.closed : TcpServerPc → Bool
  | .finished | .failing _ | .failed _ => true
  | _ => false

structure TcpServer where
  pc : TcpServerPc
  message : List Byte
  messages : UInt64

namespace TcpSetup

variable (u : TcpSetup)

/-- The number of messages of a run. -/
def total : ℕ := u.options.total

/-- The place of a message among all of the run. -/
def place : Loop → ℕ → ℕ
  | .warmup, index => index
  | .measured, index => u.options.warmup + index

/-- The sequence of a message. -/
def sequence (loop : Loop) (index : ℕ) : UInt32 :=
  UInt32.ofNat (u.place loop index)

end TcpSetup

namespace TcpServer

def initial (u : TcpSetup) : TcpServer where
  pc := .starting
  message := List.replicate u.payloadBytes 0
  messages := 0

/-- The server after a turn of `receive_all`. -/
def settleReceive (s : TcpServer) (index : ℕ) : ReceiveTurn → TcpServer
  | .again r => { s with pc := .receiving index r }
  | .done r (.ok ()) => { s with message := r.bytes, pc := .sending index 0 }
  | .done r (.error failure) => { s with message := r.bytes, pc := .failing (.receive failure) }

/-- The server after a turn of `send_all`. -/
def settleSend (s : TcpServer) (index : ℕ) : SendTurn → TcpServer
  | .again offset => { s with pc := .sending index offset }
  | .done _ (.ok ()) => { s with pc := .counting index }
  | .done _ (.error failure) => { s with pc := .failing (.send failure) }

/-- The head of the loop. -/
def next (u : TcpSetup) (s : TcpServer) (index : ℕ) : TcpServer :=
  if index < u.total then s.settleReceive index (ReceiveAll.start s.message)
  else { s with pc := .leaving }

end TcpServer

/-! ### The client -/

/-- Where the client is. It is at `exchanged` when the echo is received and not yet examined.
The exceptions thrown before the server is joined pass `unwinding` and `rejoining`. -/
inductive TcpClientPc where
  | starting
  | started
  | startFailed
  | writing (loop : Loop) (index : ℕ)
  | sending (loop : Loop) (index : ℕ) (started : UInt64) (offset : ℕ)
  | receiving (loop : Loop) (index : ℕ) (started : UInt64) (r : ReceiveAll)
  | exchanged (loop : Loop) (index : ℕ) (started : UInt64)
  | joining
  | returned (result : TcpResult)
  | unwinding (failure : TcpFailure)
  | rejoining (failure : TcpFailure)
  | thrown (failure : TcpFailure)

/-- The client's end of the connection is shut down. -/
def TcpClientPc.closed : TcpClientPc → Bool
  | .returned _ | .rejoining _ | .thrown _ => true
  | _ => false

/-- The client. `view` is the place of the last value of `server_state` it has read. -/
structure TcpClient where
  pc : TcpClientPc
  view : ℕ
  outbound : List Byte
  inbound : List Byte
  latencies : List UInt64
  checksum : UInt64
  expectedChecksum : UInt64
  validResponses : UInt64
  duplicates : UInt64
  reordered : UInt64

namespace TcpClient

def initial (u : TcpSetup) : TcpClient where
  pc := .starting
  view := 0
  outbound := List.replicate u.payloadBytes 0
  inbound := List.replicate u.payloadBytes 0
  latencies := List.replicate u.options.samples 0
  checksum := 1469598103934665603
  expectedChecksum := 1469598103934665603
  validResponses := 0
  duplicates := 0
  reordered := 0

/-- An exception is thrown before the server is joined. -/
def throw (c : TcpClient) (failure : TcpFailure) : TcpClient :=
  { c with pc := .unwinding failure }

/-- The checksum of the first `count` measured messages. -/
def checksumOf (u : TcpSetup) (count : ℕ) : UInt64 :=
  (List.range count).foldl
    (fun checksum index =>
      updateChecksum checksum (u.sequence .measured index) u.payloadBytes .tcp)
    1469598103934665603

/-- The heads of the two loops. -/
def next (u : TcpSetup) (c : TcpClient) : Loop → ℕ → TcpClient
  | .measured, index =>
      if index < u.options.samples then { c with pc := .writing .measured index }
      else { c with pc := .joining }
  | .warmup, index =>
      if index < u.options.warmup then { c with pc := .writing .warmup index }
      else if 0 < u.options.samples then { c with pc := .writing .measured 0 }
      else { c with pc := .joining }

/-- The beginning of `run_client`. -/
def begin (u : TcpSetup) (c : TcpClient) : TcpClient :=
  match initializeMessage c.outbound .tcp with
  | .error message => c.throw (.wire message)
  | .ok outbound =>
      if u.total > maximumSequence then { c with outbound := outbound }.throw .sequenceRange
      else
        { c with
          outbound := outbound
          expectedChecksum := checksumOf u u.options.samples }.next u .warmup 0

/-- The client has loaded `state` from `server_state`. -/
def load (u : TcpSetup) (c : TcpClient) (state : ℤ) : Option TcpClient :=
  match c.pc with
  | .starting => some { c with pc := if state = 0 then .starting else .started }
  | .started => some (if state < 0 then { c with pc := .startFailed } else c.begin u)
  | _ => none

/-- The client after a turn of `receive_all`. -/
def settleReceive (c : TcpClient) (loop : Loop) (index : ℕ) (started : UInt64) :
    ReceiveTurn → TcpClient
  | .again r => { c with pc := .receiving loop index started r }
  | .done r (.ok ()) => { c with inbound := r.bytes, pc := .exchanged loop index started }
  | .done r (.error failure) => { c with inbound := r.bytes }.throw (.receive failure)

/-- The client after a turn of `send_all`. -/
def settleSend (c : TcpClient) (loop : Loop) (index : ℕ) (started : UInt64) :
    SendTurn → TcpClient
  | .again offset => { c with pc := .sending loop index started offset }
  | .done _ (.ok ()) => c.settleReceive loop index started (ReceiveAll.start c.inbound)
  | .done _ (.error failure) => c.throw (.send failure)

/-- A message is written, the clock is read and `send_all` begins. -/
def write (u : TcpSetup) (c : TcpClient) (loop : Loop) (index : ℕ) (now : UInt64) : TcpClient :=
  match writeHeader c.outbound .tcp (u.sequence loop index) with
  | .error message => c.throw (.wire message)
  | .ok outbound =>
      { c with outbound := outbound }.settleSend loop index now (SendAll.head outbound 0)

/-- What the warm-up loop does after an exchange. -/
def examineWarmup (u : TcpSetup) (c : TcpClient) (index : ℕ) : TcpClient :=
  if c.inbound ≠ c.outbound then c.throw .warmupPayload
  else
    match readSequence c.inbound .tcp with
    | .error message => c.throw (.wire message)
    | .ok observed =>
        if observed ≠ u.sequence .warmup index then c.throw .warmupPayload
        else c.next u .warmup (index + 1)

/-- What the measured loop does after an exchange, where the clock reads `finished`. -/
def examineMeasured (u : TcpSetup) (c : TcpClient) (index : ℕ) (started finished : UInt64) :
    TcpClient :=
  if finished ≤ started then c.throw .nonPositiveSample
  else
    let c := { c with latencies := c.latencies.set index (finished - started) }
    match readSequence c.inbound .tcp with
    | .error message => c.throw (.wire message)
    | .ok observed =>
        let sequence := u.sequence .measured index
        if observed < sequence then
          { c with duplicates := c.duplicates + 1 }.throw .duplicateResponse
        else if observed > sequence then
          { c with reordered := c.reordered + 1 }.throw .reorderedResponse
        else if c.inbound ≠ c.outbound then c.throw .measuredPayload
        else
          { c with
            checksum := updateChecksum c.checksum sequence u.payloadBytes .tcp
            validResponses := c.validResponses + 1 }.next u .measured (index + 1)

/-- What the client does after an exchange. -/
def examine (u : TcpSetup) (c : TcpClient) (index : ℕ) (started finished : UInt64) :
    Loop → TcpClient
  | .warmup => c.examineWarmup u index
  | .measured => c.examineMeasured u index started finished

/-- What `run_client` does after it has joined a server that did not fail. The server counts no
duplicates and nothing reordered. -/
def account (u : TcpSetup) (c : TcpClient) (server : TcpServer) : Except TcpFailure TcpResult :=
  if server.messages ≠ UInt64.ofNat u.total then .error .serverMessages
  else if c.checksum ≠ c.expectedChecksum then .error .checksum
  else
    let deadlineMisses := UInt64.ofNat u.options.samples - c.validResponses
    match summarize c.latencies with
    | .error _ => .error .noSample
    | .ok latencies =>
        .ok
          { latencies := latencies
            accounting :=
              { samples := UInt64.ofNat c.latencies.length
                attemptedSamples := UInt64.ofNat u.options.samples
                warmup := UInt64.ofNat u.options.warmup
                udpDeadlineMs := UInt64.ofNat u.options.udpTimeoutMs
                udpDeadlineMisses := deadlineMisses
                udpRequestsUnobserved := 0
                udpResponseDeadlineMisses := 0
                udpCombinedDuplicateEvents := c.duplicates + 0
                udpCombinedReorderedEvents := c.reordered + 0
                udpCombinedInvalidEvents := 0
                udpCombinedTruncatedEvents := 0
                checksum := c.checksum } }

end TcpClient

/-! ### The run -/

/-- The state of a run. The kernel holds `requests` for the server and `responses` for the
client. -/
structure TcpState where
  serverState : Location ℤ
  requests : List Byte
  responses : List Byte
  server : TcpServer
  client : TcpClient

/-- What may happen. A load names the place of the value it reads, and `now` is what the clock
reads, if it is read. -/
inductive TcpAction where
  | serverStart
  | serverReceive (answer : StreamAnswer) (now : UInt64)
  | serverSend (outcome : SendOutcome)
  | serverCount
  | serverFinish
  | serverThrow (operation : String)
  | serverFail
  | clientLoad (place : ℕ)
  | clientWrite (now : UInt64)
  | clientSend (outcome : SendOutcome)
  | clientReceive (answer : StreamAnswer) (now : UInt64)
  | clientExamine (now : UInt64)
  | clientJoin
  | clientShutdown
  | clientThrow (operation : String)

namespace TcpState

variable (u : TcpSetup) (s : TcpState)

/-! ### The server thread -/

/-- The connection is accepted and configured. -/
def serverStart : Option TcpState :=
  match s.server.pc with
  | .starting =>
      some { s with serverState := s.serverState.store 1, server := s.server.next u 0 }
  | _ => none

def serverReceive (answer : StreamAnswer) (now : UInt64) : Option TcpState :=
  match s.server.pc with
  | .receiving index r =>
      (Stream.recv s.requests s.client.pc.closed (r.bytes.length - r.offset) answer).map
        fun (outcome, requests) =>
          { s with
            requests := requests
            server := s.server.settleReceive index
              (r.turn u.options.profile.receiveWait noDeadline
                { outcome := outcome, now := now }) }
  | _ => none

def serverSend (outcome : SendOutcome) : Option TcpState :=
  match s.server.pc with
  | .sending index offset =>
      (Stream.send s.responses (s.server.message.drop offset) outcome).map fun responses =>
        { s with
          responses := responses
          server := s.server.settleSend index (SendAll.turn s.server.message offset outcome) }
  | _ => none

def serverCount : Option TcpState :=
  match s.server.pc with
  | .counting index =>
      some { s with
        server := { s.server with messages := s.server.messages + 1 }.next u (index + 1) }
  | _ => none

def serverFinish : Option TcpState :=
  match s.server.pc with
  | .leaving => some { s with server := { s.server with pc := .finished } }
  | _ => none

def serverThrow (operation : String) : Option TcpState :=
  match s.server.pc with
  | .finished | .failing _ | .failed _ => none
  | _ => some { s with server := { s.server with pc := .failing (.system operation) } }

/-- The exception is kept for the client. -/
def serverFail : Option TcpState :=
  match s.server.pc with
  | .failing failure =>
      some { s with
        serverState := s.serverState.store (-1)
        server := { s.server with pc := .failed failure } }
  | _ => none

/-! ### The client -/

/-- The loads of `server_state`. -/
def clientLoad (place : ℕ) : Option TcpState :=
  (s.serverState.load s.client.view place).bind fun state =>
    ({ s.client with view := place }.load u state).map fun client => { s with client := client }

def clientWrite (now : UInt64) : Option TcpState :=
  match s.client.pc with
  | .writing loop index => some { s with client := s.client.write u loop index now }
  | _ => none

def clientSend (outcome : SendOutcome) : Option TcpState :=
  match s.client.pc with
  | .sending loop index started offset =>
      (Stream.send s.requests (s.client.outbound.drop offset) outcome).map fun requests =>
        { s with
          requests := requests
          client := s.client.settleSend loop index started
            (SendAll.turn s.client.outbound offset outcome) }
  | _ => none

def clientReceive (answer : StreamAnswer) (now : UInt64) : Option TcpState :=
  match s.client.pc with
  | .receiving loop index started r =>
      (Stream.recv s.responses s.server.pc.closed (r.bytes.length - r.offset) answer).map
        fun (outcome, responses) =>
          { s with
            responses := responses
            client := s.client.settleReceive loop index started
              (r.turn u.options.profile.receiveWait (started + tcpSpinSafetyTimeoutNs)
                { outcome := outcome, now := now }) }
  | _ => none

def clientExamine (now : UInt64) : Option TcpState :=
  match s.client.pc with
  | .exchanged loop index started =>
      some { s with client := s.client.examine u index started now loop }
  | _ => none

/-- The server thread is joined. -/
def clientJoin : Option TcpState :=
  match s.client.pc, s.server.pc with
  | .startFailed, .failed failure =>
      some { s with client := { s.client with pc := .thrown failure } }
  | .joining, .failed failure => some { s with client := { s.client with pc := .thrown failure } }
  | .joining, .finished =>
      match s.client.account u s.server with
      | .error failure => some { s with client := { s.client with pc := .thrown failure } }
      | .ok result => some { s with client := { s.client with pc := .returned result } }
  | .rejoining failure, .failed _ =>
      some { s with client := { s.client with pc := .thrown failure } }
  | .rejoining failure, .finished =>
      some { s with client := { s.client with pc := .thrown failure } }
  | _, _ => none

/-- While an exception is thrown, the connection is shut down for the server. -/
def clientShutdown : Option TcpState :=
  match s.client.pc with
  | .unwinding failure => some { s with client := { s.client with pc := .rejoining failure } }
  | _ => none

def clientThrow (operation : String) : Option TcpState :=
  match s.client.pc with
  | .startFailed | .returned _ | .unwinding _ | .rejoining _ | .thrown _ => none
  | _ => some { s with client := s.client.throw (.system operation) }

def step : TcpAction → Option TcpState
  | .serverStart => s.serverStart u
  | .serverReceive answer now => s.serverReceive u answer now
  | .serverSend outcome => s.serverSend outcome
  | .serverCount => s.serverCount u
  | .serverFinish => s.serverFinish
  | .serverThrow operation => s.serverThrow operation
  | .serverFail => s.serverFail
  | .clientLoad place => s.clientLoad u place
  | .clientWrite now => s.clientWrite u now
  | .clientSend outcome => s.clientSend outcome
  | .clientReceive answer now => s.clientReceive u answer now
  | .clientExamine now => s.clientExamine u now
  | .clientJoin => s.clientJoin u
  | .clientShutdown => s.clientShutdown
  | .clientThrow operation => s.clientThrow operation

end TcpState

/-- The runs of `run_tcp`, from the start of the server thread. -/
def tcpRun (u : TcpSetup) : TransitionSystem TcpState TcpAction where
  initial :=
    { serverState := Location.init 0
      requests := []
      responses := []
      server := TcpServer.initial u
      client := TcpClient.initial u }
  step action s := s.step u action

end SocketLatency
