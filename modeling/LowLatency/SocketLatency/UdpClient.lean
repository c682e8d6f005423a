import LowLatency.SocketLatency.UdpServer

/-!
# The client of a UDP run

The client sends the warm-up requests and then the measured ones, waits for the response to
each until its deadline, and takes one latency sample of each response that is in time. Once
the server is joined, it accounts for the requests without a sample.
-/

namespace SocketLatency

open Sockets (Byte)

variable {Address : Type}

/-! ### The result of a run -/

/-- The part of `run_result` that accounts for a UDP run. -/
structure RunResult where
  samples : UInt64
  attemptedSamples : UInt64
  warmup : UInt64
  udpDeadlineMs : UInt64
  udpDeadlineMisses : UInt64
  udpRequestsUnobserved : UInt64
  udpResponseDeadlineMisses : UInt64
  udpCombinedDuplicateEvents : UInt64
  udpCombinedReorderedEvents : UInt64
  udpCombinedInvalidEvents : UInt64
  udpCombinedTruncatedEvents : UInt64
  checksum : UInt64

/-! ### The client -/

/-- The two loops of requests. -/
inductive Loop where
  | warmup
  | measured

/-- Where the client is. It is at `waiting` after the clock was before the deadline, and at
`missed` when an attempt has ended without a sample. The exceptions pass `unwinding` and
`rejoining`. -/
inductive ClientPc where
  | starting
  | started
  | startFailed
  | sending (loop : Loop) (index : ℕ)
  | checking (loop : Loop) (index : ℕ) (sentAt : UInt64)
  | waiting (loop : Loop) (index : ℕ) (sentAt : UInt64)
  | missed (index : ℕ)
  | cancelling
  | joining
  | returned (result : RunResult)
  | unwinding (failure : UdpFailure)
  | rejoining (failure : UdpFailure)
  | thrown (failure : UdpFailure)

/-- The client. `view` is the place of the last value of `server_state` it has read. The
program keeps the samples in `latencies`; `taken` keeps the sequence beside each of them. -/
structure Client where
  pc : ClientPc
  view : ℕ
  outbound : List Byte
  inbound : List Byte
  expected : List Byte
  latencies : List UInt64
  taken : List (UInt32 × UInt64)
  arrivals : Arrivals
  checksum : UInt64
  invalid : UInt64
  truncated : UInt64

namespace UdpSetup

variable (u : UdpSetup Address)

def timeoutNs : UInt64 := UInt64.ofNat u.options.udpTimeoutMs * 1000000

def warmupTimeoutNs : UInt64 :=
  if u.timeoutNs < UInt64.ofNat udpWarmupTimeoutNs then UInt64.ofNat udpWarmupTimeoutNs
  else u.timeoutNs

/-- The sequence of a request. -/
def sequence : Loop → ℕ → UInt32
  | .warmup, index => UInt32.ofNat index
  | .measured, index => UInt32.ofNat (u.options.warmup + index)

/-- The deadline of a request. -/
def deadline (sentAt : UInt64) : Loop → UInt64
  | .warmup => sentAt + u.warmupTimeoutNs
  | .measured => sentAt + u.timeoutNs

end UdpSetup

namespace Client

def initial (u : UdpSetup Address) : Client where
  pc := .starting
  view := 0
  outbound := List.replicate u.payloadBytes 0
  inbound := List.replicate u.payloadBytes 0
  expected := List.replicate u.payloadBytes 0
  latencies := []
  taken := []
  arrivals := Arrivals.initial u.options.samples
  checksum := 1469598103934665603
  invalid := 0
  truncated := 0

/-- An exception is thrown. -/
def throw (c : Client) (failure : UdpFailure) : Client :=
  { c with pc := .unwinding failure }

/-- The heads of the two loops. -/
def next (u : UdpSetup Address) (c : Client) : Loop → ℕ → Client
  | .measured, index =>
      if index < u.options.samples then { c with pc := .sending .measured index }
      else { c with pc := .cancelling }
  | .warmup, index =>
      if index < u.options.warmup then { c with pc := .sending .warmup index }
      else if 0 < u.options.samples then { c with pc := .sending .measured 0 }
      else { c with pc := .cancelling }

/-- The buffers are initialised once the server runs. -/
def begin (u : UdpSetup Address) (c : Client) : Client :=
  match initializeMessage c.outbound .udp, initializeMessage c.expected .udp with
  | .ok outbound, .ok expected =>
      { c with outbound := outbound, expected := expected }.next u .warmup 0
  | .error message, _ => c.throw (.wire message)
  | _, .error message => c.throw (.wire message)

/-- `receive_udp_until` has returned nothing. -/
def miss (c : Client) : Loop → ℕ → Client
  | .warmup, _ => c.throw .warmupTimedOut
  | .measured, index => { c with pc := .missed index }

/-- The client has loaded `state` from `server_state`. -/
def load (u : UdpSetup Address) (c : Client) (state : ℤ) : Option Client :=
  match c.pc with
  | .starting => some { c with pc := if state = 0 then .starting else .started }
  | .started => some (if state < 0 then { c with pc := .startFailed } else c.begin u)
  | .missed index =>
      some (if state < 0 then c.throw .serverFailed else c.next u .measured (index + 1))
  | _ => none

/-- What the warm-up loop does with a datagram it has received into `inbound`. -/
def examineWarmup (u : UdpSetup Address) (c : Client) (index : ℕ)
    (datagram : ReceivedDatagram Address) [DecidableEq Address] : Client :=
  if datagram.truncated ∨ datagram.bytes ≠ c.inbound.length ∨
      (¬u.options.profile.udpConnected ∧ datagram.peer ≠ u.serverAddress) then
    c.throw .warmupInvalid
  else
    match readSequence c.inbound .udp with
    | .error message => c.throw (.wire message)
    | .ok observed =>
        if observed ≠ u.sequence .warmup index ∨ c.inbound ≠ c.outbound then
          c.throw .warmupInvalid
        else c.next u .warmup (index + 1)

/-- The measured loop goes on waiting for the response. -/
def again (c : Client) (index : ℕ) (sentAt : UInt64) : Client :=
  { c with pc := .checking .measured index sentAt }

def rejectTruncated (c : Client) (index : ℕ) (sentAt : UInt64) : Client :=
  { c with truncated := c.truncated + 1 }.again index sentAt

def rejectInvalid (c : Client) (index : ℕ) (sentAt : UInt64) : Client :=
  { c with invalid := c.invalid + 1 }.again index sentAt

/-- The end of the body of the measured loop, for a response that arrives for the first time. -/
def sample (u : UdpSetup Address) (c : Client) (index : ℕ) (sentAt receivedAt : UInt64)
    (observed : UInt32) : Client :=
  if observed ≠ u.sequence .measured index ∨ receivedAt > u.deadline sentAt .measured then
    c.again index sentAt
  else if receivedAt ≤ sentAt then c.throw .nonPositiveSample
  else
    { c with
      latencies := c.latencies ++ [receivedAt - sentAt]
      taken := c.taken ++ [(observed, receivedAt - sentAt)]
      checksum := updateChecksum c.checksum observed u.payloadBytes .udp }.next u
        .measured (index + 1)

/-- What the measured loop does with a datagram it has received into `inbound`. -/
def examineMeasured (u : UdpSetup Address) (c : Client) (index : ℕ) (sentAt receivedAt : UInt64)
    (datagram : ReceivedDatagram Address) [DecidableEq Address] : Client :=
  if datagram.truncated ∨ datagram.bytes > c.inbound.length then c.rejectTruncated index sentAt
  else if datagram.bytes ≠ c.inbound.length ∨
      (¬u.options.profile.udpConnected ∧ datagram.peer ≠ u.serverAddress) then
    c.rejectInvalid index sentAt
  else
    match readSequence c.inbound .udp with
    | .error _ => c.rejectInvalid index sentAt
    | .ok observed =>
        if observed.toNat < u.options.warmup ∨ observed.toNat ≥ u.options.total then
          c.rejectInvalid index sentAt
        else
          match writeHeader c.expected .udp observed with
          | .error message => c.throw (.wire message)
          | .ok expected =>
              let c := { c with expected := expected }
              if c.inbound ≠ c.expected then c.rejectInvalid index sentAt
              else
                let responseIndex := observed.toNat - u.options.warmup
                if Flags.isRaised c.arrivals.seen responseIndex then
                  { c with arrivals :=
                    { c.arrivals with duplicates := c.arrivals.duplicates + 1 } }.again
                      index sentAt
                else
                  { c with arrivals := c.arrivals.record responseIndex observed }.sample u
                    index sentAt receivedAt observed

/-- A datagram arrives. -/
def receive (u : UdpSetup Address) (c : Client) (index : ℕ) (sentAt receivedAt : UInt64)
    (datagram : Datagram Address) [DecidableEq Address] : Loop → Client
  | .warmup =>
      let (received, inbound) := recvmsg c.inbound datagram
      { c with inbound := inbound }.examineWarmup u index received
  | .measured =>
      let (received, inbound) := recvmsg c.inbound datagram
      { c with inbound := inbound }.examineMeasured u index sentAt receivedAt received

/-! ### The accounting -/

/-- What `run_udp` does after it has joined a server that did not fail. -/
def account (u : UdpSetup Address) (c : Client) (server : Server Address) :
    Except UdpFailure RunResult :=
  let completed := UInt64.ofNat c.latencies.length
  let attempted := UInt64.ofNat u.options.samples
  let requestsUnobserved := attempted - server.report.measuredUniqueRequests
  let deadlineMisses := attempted - completed
  if requestsUnobserved > deadlineMisses then .error .inconsistentAccounting
  else
    let responseDeadlineMisses := deadlineMisses - requestsUnobserved
    -- the check of `summarize`
    if c.latencies = [] then .error .noSample
    else
      .ok
        { samples := completed
          attemptedSamples := attempted
          warmup := UInt64.ofNat u.options.warmup
          udpDeadlineMs := UInt64.ofNat u.options.udpTimeoutMs
          udpDeadlineMisses := deadlineMisses
          udpRequestsUnobserved := requestsUnobserved
          udpResponseDeadlineMisses := responseDeadlineMisses
          udpCombinedDuplicateEvents := c.arrivals.duplicates + server.arrivals.duplicates
          udpCombinedReorderedEvents := c.arrivals.reordered + server.arrivals.reordered
          udpCombinedInvalidEvents := c.invalid + server.report.invalid
          udpCombinedTruncatedEvents := c.truncated + server.report.truncated
          checksum := c.checksum }

/-! ### What the client has sampled -/

end Client

/-- The attempt under way or next: a sample taken has a sequence before its sequence. -/
def ClientPc.attempt (u : UdpSetup Address) : ClientPc → ℕ
  | .starting | .started | .startFailed => 0
  | .sending .warmup _ | .checking .warmup _ _ | .waiting .warmup _ _ => 0
  | .sending .measured index | .checking .measured index _ | .waiting .measured index _ => index
  | .missed index => index
  | _ => u.options.samples

/-- The client has not returned, its attempt under way is one of the measured ones, and it has
not found its accounting inconsistent. -/
def ClientPc.Live (u : UdpSetup Address) : ClientPc → Prop
  | .sending .measured index | .checking .measured index _ | .waiting .measured index _ =>
      index < u.options.samples
  | .missed index => index < u.options.samples
  | .unwinding failure | .rejoining failure | .thrown failure =>
      failure ≠ .inconsistentAccounting
  | .returned _ => False
  | _ => True

namespace Client

/-- The samples are those of responses that were echoed for distinct measured sequences, each
positive and within the timeout. -/
structure Inv (u : UdpSetup Address) (network : List (Datagram Address)) (c : Client) : Prop where
  latencies : c.taken.map Prod.snd = c.latencies
  increasing : c.taken.Pairwise fun x y => x.1.toNat < y.1.toNat
  measured : ∀ x ∈ c.taken, u.options.warmup ≤ x.1.toNat ∧
    x.1.toNat < u.options.warmup + c.pc.attempt u
  inTime : ∀ x ∈ c.taken, 0 < x.2 ∧ x.2 ≤ u.timeoutNs
  echoed : ∀ x ∈ c.taken, ∃ d ∈ network, d.destination = u.clientAddress ∧
    readSequence d.bytes .udp = .ok x.1
  live : c.pc.Live u

variable {u : UdpSetup Address} {network : List (Datagram Address)} {c c' : Client}

theorem inv_initial : (initial u).Inv u [] := by
  constructor
  · rfl
  · apply List.Pairwise.nil
  · intro x hx
    cases hx
  · intro x hx
    cases hx
  · intro x hx
    cases hx
  · trivial

/-- The network keeps what was sent. -/
theorem Inv.mono (h : c.Inv u network) {network' : List (Datagram Address)}
    (hnetwork : network ⊆ network') :
  c.Inv u network'
  := by
  constructor
  · apply h.latencies
  · apply h.increasing
  · apply h.measured
  · apply h.inTime
  · intro x hx
    obtain ⟨d, hd, hrest⟩ := h.echoed x hx
    use d, hnetwork hd
  · apply h.live

theorem attempt_le (h : c.Inv u network) : c.pc.attempt u ≤ u.options.samples := by
  have hlive := h.live
  cases hpc : c.pc with
  | sending loop index | checking loop index _ | waiting loop index _ =>
      rw [hpc] at hlive
      cases loop with
      | warmup => apply Nat.zero_le
      | measured => apply Nat.le_of_lt hlive
  | missed index =>
      rw [hpc] at hlive
      apply Nat.le_of_lt hlive
  | starting | started | startFailed => apply Nat.zero_le
  | _ => apply le_rfl

/-- The client moves without taking a sample. -/
theorem Inv.move (h : c.Inv u network) (hlatencies : c'.latencies = c.latencies)
    (htaken : c'.taken = c.taken) (hattempt : c.pc.attempt u ≤ c'.pc.attempt u)
    (hlive : c'.pc.Live u) :
  c'.Inv u network
  := by
  constructor
  · rw [htaken, hlatencies, h.latencies]
  · rw [htaken]
    apply h.increasing
  · intro x hx
    rw [htaken] at hx
    have hmeasured := h.measured x hx
    omega
  · rw [htaken]
    apply h.inTime
  · rw [htaken]
    apply h.echoed
  · apply hlive

theorem Inv.throw (h : c.Inv u network) {failure : UdpFailure}
    (hfailure : failure ≠ .inconsistentAccounting) :
  (c.throw failure).Inv u network
  := by
  apply h.move
  · rfl
  · rfl
  · apply attempt_le h
  · apply hfailure

/-- The head of the measured loop goes on to the next attempt or leaves the loop. -/
theorem Inv.nextMeasured (h : c.Inv u network) {index : ℕ} (hindex : c.pc.attempt u ≤ index) :
  (c.next u .measured index).Inv u network
  := by
  rw [next]
  split_ifs with hlt
  · apply h.move
    · rfl
    · rfl
    · apply hindex
    · apply hlt
  · apply h.move
    · rfl
    · rfl
    · apply attempt_le h
    · trivial

theorem Inv.nextWarmup (h : c.Inv u network) (hattempt : c.pc.attempt u = 0) (index : ℕ) :
  (c.next u .warmup index).Inv u network
  := by
  rw [next, if_pos u.options.samples_pos]
  split_ifs with hlt
  · apply h.move
    · rfl
    · rfl
    · apply hattempt.le
    · trivial
  · apply h.move
    · rfl
    · rfl
    · apply hattempt.le
    · apply u.options.samples_pos

theorem Inv.begin (h : c.Inv u network) (hattempt : c.pc.attempt u = 0) :
  (c.begin u).Inv u network
  := by
  rw [Client.begin]
  split
  · apply Inv.nextWarmup
    · apply h.move
      · rfl
      · rfl
      · apply le_rfl
      · apply h.live
    · apply hattempt
  · apply h.throw (by simp)
  · apply h.throw (by simp)

theorem Inv.load (h : c.Inv u network) {state : ℤ} (hc : c.load u state = some c') :
  c'.Inv u network
  := by
  cases hpc : c.pc with
  | starting =>
      simp only [Client.load, hpc, Option.some.injEq] at hc
      subst hc
      apply h.move
      · rfl
      · rfl
      · rw [hpc]
        apply Nat.zero_le
      · split_ifs <;> trivial
  | started =>
      simp only [Client.load, hpc, Option.some.injEq] at hc
      subst hc
      have hattempt : c.pc.attempt u = 0 := by
        rw [hpc]
        rfl
      split_ifs
      · apply h.move
        · rfl
        · rfl
        · rw [hattempt]
          apply Nat.zero_le
        · trivial
      · apply h.begin hattempt
  | missed index =>
      simp only [Client.load, hpc, Option.some.injEq] at hc
      subst hc
      split_ifs
      · apply h.throw (by simp)
      · apply h.nextMeasured
        rw [hpc]
        apply Nat.le_succ
  | _ => simp [Client.load, hpc] at hc

theorem Inv.miss (h : c.Inv u network) {loop : Loop} {index : ℕ} {sentAt : UInt64}
    (hpc : c.pc = .waiting loop index sentAt ∨ c.pc = .checking loop index sentAt) :
  (c.miss loop index).Inv u network
  := by
  cases loop with
  | warmup => apply h.throw (by simp)
  | measured =>
      have hlive := h.live
      apply h.move
      · rfl
      · rfl
      · cases hpc with
        | inl hpc =>
            rw [hpc]
            apply le_rfl
        | inr hpc =>
            rw [hpc]
            apply le_rfl
      · cases hpc with
        | inl hpc =>
            rw [hpc] at hlive
            apply hlive
        | inr hpc =>
            rw [hpc] at hlive
            apply hlive

/-- The measured loop goes on waiting. -/
theorem Inv.again (h : c.Inv u network) {index : ℕ} {sentAt : UInt64}
    (hpc : c.pc = .waiting .measured index sentAt) (hlatencies : c'.latencies = c.latencies)
    (htaken : c'.taken = c.taken) :
  (c'.again index sentAt).Inv u network
  := by
  have hlive := h.live
  rw [hpc] at hlive
  apply h.move
  · apply hlatencies
  · apply htaken
  · rw [hpc]
    apply le_rfl
  · apply hlive

/-- A sample taken before the deadline is within the timeout, also where the deadline wraps. -/
theorem sample_le {sentAt timeout receivedAt : UInt64} (hdeadline : receivedAt ≤ sentAt + timeout)
    (hsent : sentAt < receivedAt) :
  0 < receivedAt - sentAt ∧ receivedAt - sentAt ≤ timeout
  := by
  rw [UInt64.lt_iff_toNat_lt] at hsent
  rw [UInt64.le_iff_toNat_le, UInt64.toNat_add] at hdeadline
  have hreceived := receivedAt.toNat_lt
  have htimeout := timeout.toNat_lt
  rw [UInt64.lt_iff_toNat_lt, UInt64.le_iff_toNat_le,
    UInt64.toNat_sub_of_le _ _ (UInt64.le_iff_toNat_le.mpr hsent.le)]
  change 0 < _ ∧ _
  omega

/-- The sequence of a measured attempt is a number of 32 bits. -/
theorem toNat_sequence {index : ℕ} (h : index < u.options.samples) :
  (u.sequence .measured index).toNat = u.options.warmup + index
  := by
  have htotal := u.options.total_lt
  rw [Options.total] at htotal
  rw [UdpSetup.sequence, UInt32.toNat_ofNat']
  apply Nat.mod_eq_of_lt
  omega

/-- The client takes the sample of an attempt and moves on from it. -/
theorem Inv.take (h : c.Inv u network) {index : ℕ} {observed : UInt32} {latency : UInt64}
    (hindex : c.pc.attempt u = index) (hobserved : observed.toNat = u.options.warmup + index)
    (hlatency : 0 < latency ∧ latency ≤ u.timeoutNs)
    (hechoed : ∃ d ∈ network, d.destination = u.clientAddress ∧
      readSequence d.bytes .udp = .ok observed)
    (hlatencies : c'.latencies = c.latencies ++ [latency])
    (htaken : c'.taken = c.taken ++ [(observed, latency)])
    (hattempt : index < c'.pc.attempt u) (hlive : c'.pc.Live u) :
  c'.Inv u network
  := by
  constructor
  · rw [htaken, hlatencies, List.map_append, h.latencies]
    rfl
  · rw [htaken, List.pairwise_append]
    use h.increasing, List.pairwise_singleton _ _
    intro x hx y hy
    obtain rfl := List.mem_singleton.mp hy
    have hmeasured := h.measured x hx
    rw [hindex] at hmeasured
    rw [hobserved]
    apply hmeasured.2
  · intro x hx
    rw [htaken, List.mem_append, List.mem_singleton] at hx
    rcases hx with hx | rfl
    · have hmeasured := h.measured x hx
      omega
    · constructor
      · rw [hobserved]
        omega
      · rw [hobserved]
        omega
  · intro x hx
    rw [htaken, List.mem_append, List.mem_singleton] at hx
    rcases hx with hx | rfl
    · apply h.inTime x hx
    · apply hlatency
  · intro x hx
    rw [htaken, List.mem_append, List.mem_singleton] at hx
    rcases hx with hx | rfl
    · apply h.echoed x hx
    · apply hechoed
  · apply hlive

theorem Inv.sample (h : c.Inv u network) {index : ℕ} {sentAt receivedAt : UInt64}
    {observed : UInt32} (hpc : c.pc = .waiting .measured index sentAt)
    (hechoed : ∃ d ∈ network, d.destination = u.clientAddress ∧
      readSequence d.bytes .udp = .ok observed) :
  (c.sample u index sentAt receivedAt observed).Inv u network
  := by
  have hindex : index < u.options.samples := by
    have hlive := h.live
    rw [hpc] at hlive
    apply hlive
  have hattempt : c.pc.attempt u = index := by
    rw [hpc]
    rfl
  rw [Client.sample]
  split_ifs with hlate hearly
  · apply h.again hpc <;> rfl
  · apply h.throw (by simp)
  · obtain ⟨hobserved, hdeadline⟩ := not_or.mp hlate
    have hlatency := sample_le (UInt64.not_lt.mp hdeadline) (UInt64.not_le.mp hearly)
    have hsequence : observed.toNat = u.options.warmup + index := by
      rw [not_not.mp hobserved, toNat_sequence hindex]
    rw [next]
    split_ifs with hlt
    · apply h.take hattempt hsequence hlatency hechoed
      · rfl
      · rfl
      · apply Nat.lt_succ_self
      · apply hlt
    · apply h.take hattempt hsequence hlatency hechoed
      · rfl
      · rfl
      · apply hindex
      · trivial

theorem Inv.toJoining (h : c.Inv u network) : { c with pc := .joining }.Inv u network := by
  apply h.move
  · rfl
  · rfl
  · apply attempt_le h
  · trivial

/-- Only the samples and where the client is matter. -/
theorem Inv.update (h : c.Inv u network) (hpc : c'.pc = c.pc)
    (hlatencies : c'.latencies = c.latencies) (htaken : c'.taken = c.taken) :
  c'.Inv u network
  := by
  apply h.move hlatencies htaken
  · rw [hpc]
  · rw [hpc]
    apply h.live

theorem Inv.examineWarmup [DecidableEq Address] (h : c.Inv u network) {index : ℕ}
    {sentAt : UInt64} (hpc : c.pc = .waiting .warmup index sentAt)
    (datagram : ReceivedDatagram Address) :
  (c.examineWarmup u index datagram).Inv u network
  := by
  rw [Client.examineWarmup]
  split_ifs
  · apply h.throw (by simp)
  · cases readSequence c.inbound .udp with
    | error message => apply h.throw (by simp)
    | ok observed =>
        simp only
        split_ifs
        · apply h.throw (by simp)
        · apply h.nextWarmup
          rw [hpc]
          rfl

/-- What is sampled has the sequence of a datagram that was echoed. -/
theorem Inv.examineMeasured [DecidableEq Address] (h : c.Inv u network) {index : ℕ}
    {sentAt : UInt64} (hpc : c.pc = .waiting .measured index sentAt) (receivedAt : UInt64)
    {datagram : ReceivedDatagram Address}
    (hechoed : datagram.bytes = c.inbound.length → ∀ observed,
      readSequence c.inbound .udp = .ok observed → ∃ d ∈ network,
        d.destination = u.clientAddress ∧ readSequence d.bytes .udp = .ok observed) :
  (c.examineMeasured u index sentAt receivedAt datagram).Inv u network
  := by
  have hreject : (c.rejectInvalid index sentAt).Inv u network := by
    rw [Client.rejectInvalid]
    apply h.again hpc <;> rfl
  rw [Client.examineMeasured]
  split_ifs with htruncated hinvalid
  · rw [Client.rejectTruncated]
    apply h.again hpc <;> rfl
  · apply hreject
  · have hbytes := not_not.mp (not_or.mp hinvalid).1
    cases hread : readSequence c.inbound .udp with
    | error message => apply hreject
    | ok observed =>
        simp only
        by_cases hrange : observed.toNat < u.options.warmup ∨ observed.toNat ≥ u.options.total
        · rw [if_pos hrange]
          apply hreject
        · rw [if_neg hrange]
          cases writeHeader c.expected .udp observed with
          | error message => apply h.throw (by simp)
          | ok expected =>
              have hexpected : { c with expected := expected }.Inv u network := by
                apply h.update <;> rfl
              simp only
              split_ifs with hcontents
              · rw [Client.rejectInvalid]
                apply hexpected.again hpc <;> rfl
              · apply hexpected.again hpc <;> rfl
              · apply Inv.sample
                · apply hexpected.update <;> rfl
                · apply hpc
                · apply hechoed hbytes observed hread

/-- A datagram delivered from the network is examined as it was sent. -/
theorem Inv.receive [DecidableEq Address] (h : c.Inv u network) {loop : Loop} {index : ℕ}
    {sentAt : UInt64} (hpc : c.pc = .waiting loop index sentAt) (receivedAt : UInt64)
    {d : Datagram Address} (hd : d ∈ network) (hdestination : d.destination = u.clientAddress) :
  (c.receive u index sentAt receivedAt d loop).Inv u network
  := by
  have hreceived : { c with inbound := (recvmsg c.inbound d).2 }.Inv u network := by
    apply h.update <;> rfl
  cases loop with
  | warmup => apply hreceived.examineWarmup hpc
  | measured =>
      apply hreceived.examineMeasured hpc
      intro hbytes observed hread
      simp only at hbytes hread
      rw [length_recvmsg] at hbytes
      rw [recvmsg_eq hbytes] at hread
      use d, hd, hdestination

end Client

end SocketLatency
