import LowLatency.Library.Location
import LowLatency.Library.Transition
import LowLatency.SocketLatency.UdpClient

/-!
# A UDP run

The server thread and the client run side by side. They share `server_state`,
`cancellation_requested` and the network. The network keeps every datagram sent, and delivers
to a socket any datagram sent to it, at any time and any number of times: it may drop, delay,
duplicate and reorder datagrams, but it delivers nothing else.
-/

namespace SocketLatency

variable {Address : Type} [DecidableEq Address]

/-- The state of a run. -/
structure UdpState (Address : Type) where
  serverState : Location ℤ
  cancellationRequested : Location Bool
  network : List (Datagram Address)
  server : Server Address
  client : Client

/-- What may happen. A load names the place of the value it reads, a read of the clock the
time, and a receive the datagram delivered, if any. -/
inductive UdpAction (Address : Type) where
  | serverStart
  | serverCheck (place : ℕ)
  | serverReceive (delivered : Option (Datagram Address))
  | serverSend
  | serverCount
  | serverFinish
  | serverThrow (operation : String)
  | clientLoad (place : ℕ)
  | clientSend (now : UInt64)
  | clientClock (now : UInt64)
  | clientReceive (delivered : Option (Datagram Address)) (receivedAt : UInt64)
  | clientTimeout
  | clientCancel
  | clientJoin
  | clientThrow (operation : String)

/-- A datagram the kernel may deliver to a socket, which a connected socket takes from its peer
only. -/
def UdpSetup.Delivers (u : UdpSetup Address) (network : List (Datagram Address))
    (socket peer : Address) (d : Datagram Address) : Prop :=
  d ∈ network ∧ d.destination = socket ∧
    (u.options.profile.udpConnected = true → d.source = peer)

instance (u : UdpSetup Address) (network : List (Datagram Address)) (socket peer : Address)
    (d : Datagram Address) : Decidable (u.Delivers network socket peer d) :=
  inferInstanceAs (Decidable (_ ∧ _ ∧ _))

namespace UdpState

variable (u : UdpSetup Address) (s : UdpState Address)

/-! ### The server thread -/

def serverStart : Option (UdpState Address) :=
  match s.server.pc with
  | .starting =>
      some { s with
        serverState := s.serverState.store 1
        server := { s.server with pc := .checking } }
  | _ => none

/-- The head of the loop of `receive_udp_server_datagram`. -/
def serverCheck (place : ℕ) : Option (UdpState Address) :=
  match s.server.pc with
  | .checking =>
      (s.cancellationRequested.load s.server.view place).map fun cancelled =>
        { s with
          server := { s.server with
            pc := if cancelled then .leaving else .waiting
            view := place } }
  | _ => none

/-- A `poll` that times out or a receive that would block leads back to the head. -/
def serverReceive (delivered : Option (Datagram Address)) : Option (UdpState Address) :=
  match s.server.pc, delivered with
  | .waiting, none => some { s with server := { s.server with pc := .checking } }
  | .waiting, some d =>
      if u.Delivers s.network u.serverAddress u.clientAddress d then
        some { s with server := s.server.receive u d }
      else none
  | _, _ => none

def serverSend : Option (UdpState Address) :=
  match s.server.pc with
  | .sending observed peer =>
      some { s with
        network := s.network ++ [s.server.echo u peer]
        server := { s.server with pc := .counting observed } }
  | _ => none

def serverCount : Option (UdpState Address) :=
  match s.server.pc with
  | .counting observed => some { s with server := s.server.count u observed }
  | _ => none

def serverFinish : Option (UdpState Address) :=
  match s.server.pc with
  | .leaving =>
      some { s with
        serverState := s.serverState.store 2
        server := { s.server with pc := .finished } }
  | _ => none

def serverThrow (operation : String) : Option (UdpState Address) :=
  match s.server.pc with
  | .finished | .failed _ => none
  | _ =>
      some { s with
        serverState := s.serverState.store (-1)
        server := { s.server with pc := .failed operation } }

/-! ### The client -/

/-- The loads of `server_state`. -/
def clientLoad (place : ℕ) : Option (UdpState Address) :=
  (s.serverState.load s.client.view place).bind fun state =>
    ({ s.client with view := place }.load u state).map fun client => { s with client := client }

/-- A request is written, the clock is read and the request is sent. -/
def clientSend (now : UInt64) : Option (UdpState Address) :=
  match s.client.pc with
  | .sending loop index =>
      match writeHeader s.client.outbound .udp (u.sequence loop index) with
      | .error message => some { s with client := s.client.throw (.wire message) }
      | .ok outbound =>
          some { s with
            network := s.network ++
              [{ source := u.clientAddress, destination := u.serverAddress, bytes := outbound }]
            client := { s.client with outbound := outbound, pc := .checking loop index now } }
  | _ => none

/-- The head of the loop of `receive_udp_until`. -/
def clientClock (now : UInt64) : Option (UdpState Address) :=
  match s.client.pc with
  | .checking loop index sentAt =>
      some { s with client :=
        if now ≥ u.deadline sentAt loop then s.client.miss loop index
        else { s.client with pc := .waiting loop index sentAt } }
  | _ => none

/-- A `poll` that is interrupted or a receive that would block leads back to the head. -/
def clientReceive (delivered : Option (Datagram Address)) (receivedAt : UInt64) :
    Option (UdpState Address) :=
  match s.client.pc, delivered with
  | .waiting loop index sentAt, none =>
      some { s with client := { s.client with pc := .checking loop index sentAt } }
  | .waiting loop index sentAt, some d =>
      if u.Delivers s.network u.clientAddress u.serverAddress d then
        some { s with client := s.client.receive u index sentAt receivedAt d loop }
      else none
  | _, _ => none

/-- A `poll` of `wait_readable_until` times out. -/
def clientTimeout : Option (UdpState Address) :=
  match s.client.pc, u.options.profile.receiveWait with
  | .waiting loop index _, .kernel => some { s with client := s.client.miss loop index }
  | _, _ => none

/-- The server is cancelled, after the measured loop or while an exception is thrown. -/
def clientCancel : Option (UdpState Address) :=
  match s.client.pc with
  | .cancelling =>
      some { s with
        cancellationRequested := s.cancellationRequested.store true
        client := { s.client with pc := .joining } }
  | .unwinding failure =>
      some { s with
        cancellationRequested := s.cancellationRequested.store true
        client := { s.client with pc := .rejoining failure } }
  | _ => none

/-- The server thread is joined. -/
def clientJoin : Option (UdpState Address) :=
  match s.client.pc, s.server.pc with
  | .startFailed, .failed operation => some { s with client := s.client.throw (.system operation) }
  | .joining, .failed operation => some { s with client := s.client.throw (.system operation) }
  | .joining, .finished =>
      match s.client.account u s.server with
      | .error failure => some { s with client := s.client.throw failure }
      | .ok result => some { s with client := { s.client with pc := .returned result } }
  | .rejoining failure, .failed _ =>
      some { s with client := { s.client with pc := .thrown failure } }
  | .rejoining failure, .finished =>
      some { s with client := { s.client with pc := .thrown failure } }
  | _, _ => none

def clientThrow (operation : String) : Option (UdpState Address) :=
  match s.client.pc with
  | .returned _ | .unwinding _ | .rejoining _ | .thrown _ => none
  | _ => some { s with client := s.client.throw (.system operation) }

def step : UdpAction Address → Option (UdpState Address)
  | .serverStart => s.serverStart
  | .serverCheck place => s.serverCheck place
  | .serverReceive delivered => s.serverReceive u delivered
  | .serverSend => s.serverSend u
  | .serverCount => s.serverCount u
  | .serverFinish => s.serverFinish
  | .serverThrow operation => s.serverThrow operation
  | .clientLoad place => s.clientLoad u place
  | .clientSend now => s.clientSend u now
  | .clientClock now => s.clientClock u now
  | .clientReceive delivered receivedAt => s.clientReceive u delivered receivedAt
  | .clientTimeout => s.clientTimeout u
  | .clientCancel => s.clientCancel
  | .clientJoin => s.clientJoin u
  | .clientThrow operation => s.clientThrow operation

end UdpState

/-- The runs of `run_udp`, from the start of the server thread. -/
def udpRun (u : UdpSetup Address) : TransitionSystem (UdpState Address) (UdpAction Address) where
  initial :=
    { serverState := Location.init 0
      cancellationRequested := Location.init false
      network := []
      server := Server.initial u
      client := Client.initial u }
  step action s := s.step u action

end SocketLatency
