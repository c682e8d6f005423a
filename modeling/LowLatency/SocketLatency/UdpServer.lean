import LowLatency.SocketLatency.Wire

/-!
# The echo server of a UDP run

The server receives datagrams until it is cancelled, echoes those which are requests of the
run, and counts each measured request once, after the echo.
-/

namespace SocketLatency

open Sockets (Byte)

variable {Address : Type}

/-- The parameters of a UDP run, and the addresses of its two sockets. -/
structure UdpSetup (Address : Type) where
  options : Options
  payloadBytes : ℕ
  clientAddress : Address
  serverAddress : Address
  payloadBytes_mem : payloadBytes ∈ payloadSizes
  clientAddress_ne : clientAddress ≠ serverAddress

/-- The exceptions of a UDP run. Those of `system` are thrown around calls of the kernel. -/
inductive UdpFailure where
  | system (operation : String)
  | wire (message : String)
  | warmupTimedOut
  | warmupInvalid
  | nonPositiveSample
  | serverFailed
  | inconsistentAccounting
  | noSample
  deriving DecidableEq

/-- The text of an exception. -/
def UdpFailure.what : UdpFailure → String
  | .system operation => operation
  | .wire message => message
  | .warmupTimedOut => "UDP warmup response timed out"
  | .warmupInvalid => "UDP warmup validation failed"
  | .nonPositiveSample => "non-positive UDP RTT sample"
  | .serverFailed => "UDP server failed during measurement"
  | .inconsistentAccounting => "inconsistent UDP deadline accounting"
  | .noSample => "run completed without a latency sample"

/-- The destination of `send_profile_datagram`: the connected peer, or the one it is given. -/
def sendProfileDestination (profile : ProfileSpec) (connected destination : Address) : Address :=
  if profile.udpConnected then connected else destination

/-- The part of `server_report` that the loop counts, beside what it records of arrivals. -/
structure ServerReport where
  messages : UInt64
  measuredUniqueRequests : UInt64
  invalid : UInt64
  truncated : UInt64

/-- Where the server is. It is at `waiting` after `cancellation_requested` was loaded as
`false`, and at `counting` after it has sent the echo. -/
inductive ServerPc (Address : Type) where
  | starting
  | checking
  | waiting
  | sending (observed : UInt32) (peer : Address)
  | counting (observed : UInt32)
  | leaving
  | finished
  | failed (operation : String)

/-- No echo is under way. -/
def ServerPc.Idle : ServerPc Address → Prop
  | .sending _ _ | .counting _ => False
  | _ => True

/-- The server receives, or is about to begin or to stop receiving. -/
def ServerPc.Receiving : ServerPc Address → Prop
  | .starting | .checking | .waiting | .leaving => True
  | _ => False

/-- The server. `view` is the place of the last value of `cancellation_requested` it has
read. -/
structure Server (Address : Type) where
  pc : ServerPc Address
  view : ℕ
  message : List Byte
  arrivals : Arrivals
  report : ServerReport

namespace Server

def initial (u : UdpSetup Address) : Server Address where
  pc := .starting
  view := 0
  message := List.replicate u.payloadBytes 0
  arrivals := Arrivals.initial u.options.samples
  report := { messages := 0, measuredUniqueRequests := 0, invalid := 0, truncated := 0 }

def rejectTruncated (s : Server Address) : Server Address :=
  { s with pc := .checking, report := { s.report with truncated := s.report.truncated + 1 } }

def rejectInvalid (s : Server Address) : Server Address :=
  { s with pc := .checking, report := { s.report with invalid := s.report.invalid + 1 } }

/-- What the loop does with a datagram it has received into `message`, up to the echo. -/
def examine (u : UdpSetup Address) (s : Server Address) (datagram : ReceivedDatagram Address) :
    Server Address :=
  if datagram.truncated ∨ datagram.bytes > s.message.length then s.rejectTruncated
  else if datagram.bytes ≠ s.message.length then s.rejectInvalid
  else
    match readSequence s.message .udp with
    | .error _ => s.rejectInvalid
    | .ok observed =>
        if observed.toNat ≥ u.options.total then s.rejectInvalid
        else { s with pc := .sending observed datagram.peer }

/-- A datagram arrives. -/
def receive (u : UdpSetup Address) (s : Server Address) (datagram : Datagram Address) :
    Server Address :=
  let (received, message) := recvmsg s.message datagram
  { s with message := message }.examine u received

/-- The echo. -/
def echo (u : UdpSetup Address) (s : Server Address) (peer : Address) : Datagram Address where
  source := u.serverAddress
  destination := sendProfileDestination u.options.profile u.clientAddress peer
  bytes := s.message

/-- What the loop does after the echo. -/
def count (u : UdpSetup Address) (s : Server Address) (observed : UInt32) : Server Address :=
  let s := { s with
    pc := .checking
    report := { s.report with messages := s.report.messages + 1 } }
  if observed.toNat < u.options.warmup then s
  else
    let measuredIndex := observed.toNat - u.options.warmup
    if Flags.isRaised s.arrivals.seen measuredIndex then
      { s with arrivals := { s.arrivals with duplicates := s.arrivals.duplicates + 1 } }
    else
      { s with
        arrivals := s.arrivals.record measuredIndex observed
        report := { s.report with
          measuredUniqueRequests := s.report.measuredUniqueRequests + 1 } }

/-! ### What the server has counted -/

/-- A sequence that is not measured, is counted, or is about to be counted unless the server
fails. -/
def Counts (u : UdpSetup Address) (s : Server Address) (observed : UInt32) : Prop :=
  observed.toNat < u.options.warmup ∨
    Flags.isRaised s.arrivals.seen (observed.toNat - u.options.warmup) = true ∨
    s.pc = .counting observed ∨ ∃ operation, s.pc = .failed operation

/-- The counter of measured requests counts the flags, and the message being echoed has the
sequence that will be counted. -/
structure Inv (u : UdpSetup Address) (s : Server Address) : Prop where
  seen : s.arrivals.seen.length = u.options.samples
  unique : s.report.measuredUniqueRequests.toNat = s.arrivals.seen.count true
  sending : ∀ observed peer, s.pc = .sending observed peer →
    readSequence s.message .udp = .ok observed ∧ observed.toNat < u.options.total
  counting : ∀ observed, s.pc = .counting observed → observed.toNat < u.options.total

variable {u : UdpSetup Address} {s s' : Server Address}

theorem inv_initial : (initial u).Inv u := by
  constructor
  · apply List.length_replicate
  · simp [initial, Arrivals.initial, List.count_replicate]
  · intro observed peer h
    cases h
  · intro observed h
    cases h

/-- The server moves to where no echo is under way, without counting. -/
theorem Inv.move (h : s.Inv u) (harrivals : s'.arrivals = s.arrivals)
    (hreport : s'.report.measuredUniqueRequests = s.report.measuredUniqueRequests)
    (hidle : s'.pc.Idle) :
  s'.Inv u
  := by
  constructor
  · rw [harrivals, h.seen]
  · rw [harrivals, hreport, h.unique]
  · intro observed peer hpc
    rw [hpc] at hidle
    cases hidle
  · intro observed hpc
    rw [hpc] at hidle
    cases hidle

/-- A server that is not counting counts no less when it moves. -/
theorem Counts.move {observed : UInt32} (h : s.Counts u observed)
    (harrivals : s'.arrivals = s.arrivals) (hcounting : s.pc ≠ .counting observed)
    (hfailed : ∀ operation, s.pc ≠ .failed operation) :
  s'.Counts u observed
  := by
  rcases h with hwarmup | hseen | hpc | ⟨operation, hpc⟩
  · left
    apply hwarmup
  · right; left
    rw [harrivals]
    apply hseen
  · cases hcounting hpc
  · cases hfailed operation hpc

/-- What the loop may do with a datagram, up to the echo. -/
theorem examine_cases (u : UdpSetup Address) (s : Server Address)
    (datagram : ReceivedDatagram Address) :
  s.examine u datagram = s.rejectTruncated ∨ s.examine u datagram = s.rejectInvalid ∨
    ∃ observed, readSequence s.message .udp = .ok observed ∧
      observed.toNat < u.options.total ∧
      s.examine u datagram = { s with pc := .sending observed datagram.peer }
  := by
  unfold examine
  by_cases htruncated : datagram.truncated = true ∨ datagram.bytes > s.message.length
  · left
    rw [if_pos htruncated]
  · right
    rw [if_neg htruncated]
    by_cases hbytes : datagram.bytes = s.message.length
    · rw [if_neg (not_not.mpr hbytes)]
      cases hread : readSequence s.message .udp with
      | error message =>
          left
          rfl
      | ok observed =>
          by_cases htotal : observed.toNat ≥ u.options.total
          · left
            simp only [if_pos htotal]
          · right
            use observed, rfl, by omega
            simp only [if_neg htotal]
    · left
      rw [if_pos hbytes]

theorem Inv.examine (h : s.Inv u) (datagram : ReceivedDatagram Address) :
  (s.examine u datagram).Inv u
  := by
  rcases examine_cases u s datagram with heq | heq | ⟨observed, hread, htotal, heq⟩
  · rw [heq]
    apply h.move
    · rfl
    · rfl
    · trivial
  · rw [heq]
    apply h.move
    · rfl
    · rfl
    · trivial
  · rw [heq]
    constructor
    · apply h.seen
    · apply h.unique
    · intro observed' peer hpc
      cases hpc
      use hread
    · intro observed' hpc
      cases hpc

theorem arrivals_examine (u : UdpSetup Address) (s : Server Address)
    (datagram : ReceivedDatagram Address) :
  (s.examine u datagram).arrivals = s.arrivals
  := by
  rcases examine_cases u s datagram with heq | heq | ⟨observed, hread, htotal, heq⟩
  · rw [heq]
    rfl
  · rw [heq]
    rfl
  · rw [heq]

theorem Inv.receive (h : s.Inv u) (hwaiting : s.pc = .waiting) (datagram : Datagram Address) :
  (s.receive u datagram).Inv u
  := by
  apply Inv.examine
  apply h.move
  · rfl
  · rfl
  · rw [hwaiting]
    trivial

/-- A measured request is counted once, and any other request is not counted. -/
theorem count_cases (u : UdpSetup Address) (s : Server Address) (observed : UInt32) :
  (s.count u observed).pc = .checking ∧
    (((s.count u observed).arrivals.seen = s.arrivals.seen ∧
        (s.count u observed).report.measuredUniqueRequests = s.report.measuredUniqueRequests ∧
        (observed.toNat < u.options.warmup ∨
          Flags.isRaised s.arrivals.seen (observed.toNat - u.options.warmup) = true)) ∨
      ((s.count u observed).arrivals.seen =
          Flags.raise s.arrivals.seen (observed.toNat - u.options.warmup) ∧
        (s.count u observed).report.measuredUniqueRequests =
          s.report.measuredUniqueRequests + 1 ∧
        u.options.warmup ≤ observed.toNat ∧
        Flags.isRaised s.arrivals.seen (observed.toNat - u.options.warmup) = false))
  := by
  unfold count
  by_cases hwarmup : observed.toNat < u.options.warmup
  · simp only [if_pos hwarmup, true_and]
    left
    simp [hwarmup]
  · simp only [if_neg hwarmup]
    cases hseen : Flags.isRaised s.arrivals.seen (observed.toNat - u.options.warmup) with
    | true => simp
    | false =>
        simp only [Bool.false_eq_true, if_false, true_and]
        right
        use rfl, by omega

theorem Inv.count (h : s.Inv u) {observed : UInt32} (hcounting : s.pc = .counting observed) :
  (s.count u observed).Inv u
  := by
  have htotal := h.counting observed hcounting
  have hsamples : u.options.samples < 2 ^ 32 := by
    have := u.options.total_lt
    rw [Options.total] at this
    omega
  obtain ⟨hpc, ⟨hseen, hunique, -⟩ | ⟨hseen, hunique, hwarmup, hnew⟩⟩ := count_cases u s observed
  · constructor
    · rw [hseen, h.seen]
    · rw [hseen, hunique, h.unique]
    · intro observed' peer hpc'
      rw [hpc] at hpc'
      cases hpc'
    · intro observed' hpc'
      rw [hpc] at hpc'
      cases hpc'
  · have hindex : observed.toNat - u.options.warmup < s.arrivals.seen.length := by
      rw [Options.total] at htotal
      rw [h.seen]
      omega
    constructor
    · rw [hseen, Flags.length_raise, h.seen]
    · have hle : s.arrivals.seen.count true ≤ s.arrivals.seen.length := List.count_le_length
      rw [h.seen] at hle
      rw [hseen, hunique, Flags.count_raise hindex hnew, UInt64.toNat_add, h.unique]
      apply Nat.mod_eq_of_lt
      change _ + 1 < _
      omega
    · intro observed' peer hpc'
      rw [hpc] at hpc'
      cases hpc'
    · intro observed' hpc'
      rw [hpc] at hpc'
      cases hpc'

/-- Counting makes good what was about to be counted. -/
theorem Counts.count {observed pending : UInt32} (h : s.Counts u observed) (hinv : s.Inv u)
    (hcounting : s.pc = .counting pending) :
  (s.count u pending).Counts u observed
  := by
  have htotal := hinv.counting pending hcounting
  obtain ⟨-, ⟨hseen, -, hdone⟩ | ⟨hseen, -, hwarmup, -⟩⟩ := count_cases u s pending
  · rcases h with h | h | h | ⟨operation, h⟩
    · left
      apply h
    · right; left
      rw [hseen]
      apply h
    · rw [hcounting] at h
      cases h
      cases hdone with
      | inl hdone =>
          left
          apply hdone
      | inr hdone =>
          right; left
          rw [hseen]
          apply hdone
    · rw [hcounting] at h
      cases h
  · rcases h with h | h | h | ⟨operation, h⟩
    · left
      apply h
    · right; left
      rw [hseen]
      apply Flags.isRaised_raise_of_isRaised h
    · rw [hcounting] at h
      cases h
      right; left
      rw [hseen]
      apply Flags.isRaised_raise_self
      rw [Options.total] at htotal
      rw [hinv.seen]
      omega
    · rw [hcounting] at h
      cases h

end Server

end SocketLatency
