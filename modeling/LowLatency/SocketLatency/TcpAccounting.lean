import LowLatency.SocketLatency.TcpExchange
import LowLatency.SocketLatency.UdpAccounting

/-!
# The accounting of a TCP run

In every run both ends stand at matching positions of the stream of messages, so the client never
rejects what it receives. When the server is joined, every sample has been taken, no event is
counted, and the summarizer takes the row.
-/

namespace SocketLatency

open Percentiles (Metrics)
open Sockets (SendOutcome)

variable {u : TcpSetup}

/-! ### The row -/

/-- The columns of a row which come from the clocks and the processor, as the summarizer reads
them, and from the options of the sockets. -/
structure Diagnostics where
  metrics : Summarize.FloatColumns
  contextSwitches : List UInt64
  connectNs : UInt64
  buffers : Summarize.BufferColumns

/-- The columns that are printed of a result with the latencies `l`. The two `TCP_NODELAY` are
those of the profile, or `run_tcp` has thrown. -/
def RunResult.tcpRow (result : RunResult) (u : TcpSetup) (l : Latencies) (d : Diagnostics) :
    Summarize.CsvRow where
  toRow := result.row
  protocol := "tcp"
  warmup := result.warmup.toNat
  udpDeadlineMs := result.udpDeadlineMs.toNat
  percentiles := (l.minimumNs :: l.metrics).map fun x => (x.toNat : ℤ)
  metrics := d.metrics
  contextSwitches := d.contextSwitches.map fun x => (x.toNat : ℤ)
  tcpConnectNs := d.connectNs.toNat
  buffers := d.buffers
  clientTcpNodelay := if u.options.profile.tcpNodelay then 1 else 0
  serverTcpNodelay := if u.options.profile.tcpNodelay then 1 else 0
  udpEvents :=
    [result.udpCombinedDuplicateEvents, result.udpCombinedReorderedEvents,
      result.udpCombinedInvalidEvents, result.udpCombinedTruncatedEvents].map
        fun x => (x.toNat : ℤ)
  checksum := result.checksum.toNat

/-! ### The result -/

/-- A result of a complete run in which nothing went wrong: the samples are those of the client,
all positive, and no event is counted. -/
structure TcpResult.Exact (u : TcpSetup) (samples : List UInt64) (result : TcpResult) : Prop where
  length : samples.length = u.options.samples
  positive : ∀ x ∈ samples, 0 < x
  latencies : ∃ l, result.latencies = some l ∧ Metrics samples l.minimumNs l.metrics
  accounting : result.accounting =
    { samples := UInt64.ofNat u.options.samples
      attemptedSamples := UInt64.ofNat u.options.samples
      warmup := UInt64.ofNat u.options.warmup
      udpDeadlineMs := UInt64.ofNat u.options.udpTimeoutMs
      udpDeadlineMisses := 0
      udpRequestsUnobserved := 0
      udpResponseDeadlineMisses := 0
      udpCombinedDuplicateEvents := 0
      udpCombinedReorderedEvents := 0
      udpCombinedInvalidEvents := 0
      udpCombinedTruncatedEvents := 0
      checksum := TcpClient.checksumOf u u.options.samples }

/-- A client which has completed its exchanges has an exact result. -/
theorem TcpClient.Ready.account {c : TcpClient} (h : c.Ready u u.options.samples)
    {server : TcpServer} (hmessages : server.messages = UInt64.ofNat u.total) :
  ∃ result, c.account u server = .ok result ∧ result.Exact u c.latencies
  := by
  have hlength := h.latencies
  have hpos := u.options.samples_pos
  have hlt := u.options.samples_lt
  have hne : c.latencies ≠ [] := by
    apply List.ne_nil_of_length_pos
    omega
  obtain ⟨l, hsummarize, hmetrics⟩ :=
    Percentiles.socketSummarize_reported hne (by omega)
  rw [TcpClient.account, if_neg (not_not.mpr hmessages),
    if_neg (by rw [h.checksum, h.expectedChecksum]; apply not_not.mpr rfl), hsummarize]
  refine ⟨_, rfl, hlength, ?_, ⟨l, rfl, hmetrics⟩, ?_⟩
  · intro x hx
    apply h.positive
    rw [List.take_of_length_le (by omega)]
    apply hx
  · simp only [hlength, h.validResponses, h.duplicates, h.reordered, h.checksum,
      UInt64.sub_self]
    rfl

/-- The numbers of a run fit a word. -/
theorem toNat_ofNat_of_lt {n : ℕ} (h : n < 2 ^ 32) : (UInt64.ofNat n).toNat = n := by
  rw [UInt64.toNat_ofNat']
  apply Nat.mod_eq_of_lt
  omega

/-- The percentiles of positive samples are positive and increase. -/
theorem percentiles_increasing {samples : List UInt64} {l : Latencies}
    (h : Metrics samples l.minimumNs l.metrics) (hpos : ∀ x ∈ samples, 0 < x) :
  let percentiles := (l.minimumNs :: l.metrics).map fun x => (x.toNat : ℤ)
  ¬(percentiles.headD 0 ≤ 0 ∨ percentiles ≠ OrderStatistics.sorted percentiles)
  := by
  intro percentiles
  have hminimum := UInt64.lt_iff_toNat_lt.mp (hpos _ h.minimum_mem)
  have hhead : percentiles.headD 0 = l.minimumNs.toNat := rfl
  have hincreasing : percentiles.Pairwise (· ≤ ·) := by
    rw [List.pairwise_map]
    apply h.increasing.imp
    intro a b hab
    have hle := UInt64.le_iff_toNat_le.mp hab
    omega
  have hsorted : OrderStatistics.sorted percentiles = percentiles := by
    apply List.mergeSort_of_pairwise
    apply hincreasing.imp
    intro a b hab
    apply decide_eq_true hab
  rintro (hle | hne)
  · rw [hhead] at hle
    change 0 < _ at hminimum
    omega
  · apply hne hsorted.symm

/-- The summarizer takes the row of an exact result when its clocks, its processor and its
sockets have given what they should, its checksum is not zero, and its profile leaves
`TCP_NODELAY` as it is. -/
theorem TcpResult.Exact.validateRow_iff {samples : List UInt64} {result : TcpResult}
    (h : result.Exact u samples) :
  ∃ l, result.latencies = some l ∧ ∀ d lineNumber,
    Summarize.validateRow (result.accounting.tcpRow u l d) lineNumber = .ok () ↔
      Summarize.Measured d.metrics d.buffers ∧ 0 < d.connectNs ∧ 0 < result.accounting.checksum
        ∧ u.options.profile.tcpNodelay = false
  := by
  obtain ⟨l, hl, hmetrics⟩ := h.latencies
  have hpos := u.options.samples_pos
  have hwarmup := u.options.warmup_pos
  have htimeout := u.options.udpTimeoutMs_pos
  have htimeout_le := u.options.udpTimeoutMs_le
  have htotal := u.options.total_lt
  rw [Options.total] at htotal
  have hsamples : (UInt64.ofNat u.options.samples).toNat = u.options.samples :=
    toNat_ofNat_of_lt (by omega)
  have hwarm : (UInt64.ofNat u.options.warmup).toNat = u.options.warmup :=
    toNat_ofNat_of_lt (by omega)
  have hdeadline : (UInt64.ofNat u.options.udpTimeoutMs).toNat = u.options.udpTimeoutMs :=
    toNat_ofNat_of_lt (by omega)
  use l, hl
  intro d lineNumber
  rw [Summarize.validateRow_eq_ok_iff rfl]
  constructor
  · intro hrow
    have hconnect := hrow.connect_pos
    have hchecksum := hrow.checksum_pos
    have hnagle := hrow.clientNagle
    simp only [RunResult.tcpRow] at hconnect hchecksum hnagle
    use hrow.measured
    refine ⟨UInt64.lt_iff_toNat_lt.mpr ?_, UInt64.lt_iff_toNat_lt.mpr ?_, ?_⟩
    · apply Int.natCast_pos.mp hconnect
    · apply Int.natCast_pos.mp hchecksum
    · cases hprofile : u.options.profile.tcpNodelay with
      | false => rfl
      | true => simp [hprofile] at hnagle
  · rintro ⟨hmeasured, hconnect, hchecksum, hprofile⟩
    have hpercentiles := percentiles_increasing hmetrics h.positive
    rw [not_or, not_not, Int.not_le] at hpercentiles
    constructor
    case measured => apply hmeasured
    case percentiles_pos => apply hpercentiles.1
    case sorted => apply hpercentiles.2
    case connect_pos =>
      apply Int.natCast_pos.mpr
      apply UInt64.lt_iff_toNat_lt.mp hconnect
    case checksum_pos =>
      apply Int.natCast_pos.mpr
      apply UInt64.lt_iff_toNat_lt.mp hchecksum
    case switches =>
      intro x hx
      obtain ⟨y, -, rfl⟩ := List.mem_map.mp hx
      apply Int.natCast_nonneg
    all_goals
      simp only [RunResult.tcpRow, RunResult.row, h.accounting, hsamples, hwarm, hdeadline,
        hprofile]
    case successful_pos => omega
    case warmup_pos => omega
    case deadline_pos => omega
    all_goals simp

/-! ### The invariant of a run -/

/-- The client has returned what it accounts for, after the server has finished. -/
structure TcpState.Returned (u : TcpSetup) (s : TcpState) (result : TcpResult) : Prop where
  pc : s.client.pc = .returned result
  finished : s.server.pc = .finished
  ready : s.client.Ready u u.options.samples
  account : s.client.account u s.server = .ok result

/-- The client has sent and received so much of the stream, and so has the server, which has
served and echoed it. The connection holds what lies between. -/
structure TcpState.At (u : TcpSetup) (s : TcpState) (sent served echoed received : ℕ) :
    Prop where
  requests : Pipe.Carries u.stream s.requests sent served
  responses : Pipe.Carries u.stream s.responses echoed received
  server : s.server.At u served echoed
  client : s.client.At u sent received ∨ ∃ result, s.Returned u result
    ∧ sent = u.total * u.payloadBytes ∧ received = u.total * u.payloadBytes
  sent_le : sent ≤ received + u.payloadBytes

/-- Both ends stand at some positions of the stream. -/
def TcpState.Inv (u : TcpSetup) (s : TcpState) : Prop :=
  ∃ sent served echoed received, s.At u sent served echoed received

namespace TcpState

variable {s s' : TcpState} {sent served echoed received : ℕ}

theorem inv_initial (u : TcpSetup) : (tcpRun u).initial.Inv u := by
  refine ⟨0, 0, 0, 0, ?_⟩
  constructor
  · apply Pipe.carries_nil
  · apply Pipe.carries_nil
  · use rfl, rfl
  · left
    use rfl, rfl
  · apply Nat.zero_le

/-- A client that has not returned. -/
theorem At.live (h : s.At u sent served echoed received)
    (hlive : ∀ result, s.client.pc ≠ .returned result) :
  s.client.At u sent received
  := by
  rcases h.client with hclient | ⟨result, hreturned, -⟩
  · apply hclient
  · cases hlive result hreturned.pc

/-- The server moves, receives and sends. -/
theorem At.ofServer (h : s.At u sent served echoed received) (hclient : s'.client = s.client)
    (hrunning : s.server.pc ≠ .finished) {served' echoed' : ℕ}
    (hrequests : Pipe.Carries u.stream s'.requests sent served')
    (hresponses : Pipe.Carries u.stream s'.responses echoed' received)
    (hserver : s'.server.At u served' echoed') :
  s'.Inv u
  := by
  refine ⟨sent, served', echoed', received, hrequests, hresponses, hserver, ?_, h.sent_le⟩
  left
  rw [hclient]
  apply h.live
  intro result hpc
  rcases h.client with hlive | ⟨result', hreturned, -⟩
  · simp only [TcpClient.At, hpc] at hlive
  · apply hrunning hreturned.finished

/-- The client moves, sends and receives. -/
theorem At.ofClient (h : s.At u sent served echoed received) (hserver : s'.server = s.server)
    {sent' received' : ℕ} (hrequests : Pipe.Carries u.stream s'.requests sent' served)
    (hresponses : Pipe.Carries u.stream s'.responses echoed received')
    (hclient : s'.client.At u sent' received') :
  s'.Inv u
  := by
  refine ⟨sent', served, echoed, received', hrequests, hresponses, ?_, .inl hclient,
    hclient.sent_le⟩
  rw [hserver]
  apply h.server

/-! ### Steps of the server -/

theorem Inv.serverStart (h : s.Inv u) (hs : s.serverStart u = some s') : s'.Inv u := by
  obtain ⟨sent, served, echoed, received, hat⟩ := h
  cases hpc : s.server.pc with
  | starting =>
      simp only [TcpState.serverStart, hpc, Option.some.injEq] at hs
      subst hs
      have hserver := hat.server
      simp only [TcpServer.At, hpc] at hserver
      obtain ⟨hinitial, rfl, rfl⟩ := hserver
      have hlength : s.server.message.length = u.payloadBytes := by
        rw [hinitial]
        apply List.length_replicate
      have hmessages : s.server.messages = UInt64.ofNat 0 := by
        rw [hinitial]
        rfl
      have hnext := TcpServer.at_next hlength (Nat.zero_le _) hmessages
      rw [Nat.zero_mul] at hnext
      apply hat.ofServer
      · rfl
      · simp [hpc]
      · apply hat.requests
      · apply hat.responses
      · apply hnext
  | _ => simp [TcpState.serverStart, hpc] at hs

theorem Inv.serverReceive (h : s.Inv u) {answer : StreamAnswer} {now : UInt64}
    (hs : s.serverReceive u answer now = some s') :
  s'.Inv u
  := by
  obtain ⟨sent, served, echoed, received, hat⟩ := h
  cases hpc : s.server.pc with
  | receiving index r =>
      simp only [TcpState.serverReceive, hpc, Option.map_eq_some_iff] at hs
      obtain ⟨⟨outcome, requests⟩, hrecv, rfl⟩ := hs
      have hserver := hat.server
      simp only [TcpServer.At, hpc] at hserver
      obtain ⟨hindex, hmessages, hreceives, rfl, rfl⟩ := hserver
      have hlength := u.length_message index
      have hoffset := hreceives.again_lt r rfl
      have hbytes := hreceives.length_eq
      rw [hbytes, hlength] at hrecv hoffset
      obtain ⟨count, hle, hdelivered, hcarries⟩ :=
        TcpSetup.carries_recv hat.requests hindex hoffset.le hrecv
      apply hat.ofServer
      · rfl
      · simp [hpc]
      · apply hcarries
      · apply hat.responses
      · apply TcpServer.at_settleReceive _ hle hindex hmessages
        apply hreceives.turn _ hdelivered
        rw [hlength]
        apply hle
  | _ => simp [TcpState.serverReceive, hpc] at hs

theorem Inv.serverSend (h : s.Inv u) {outcome : SendOutcome}
    (hs : s.serverSend outcome = some s') :
  s'.Inv u
  := by
  obtain ⟨sent, served, echoed, received, hat⟩ := h
  cases hpc : s.server.pc with
  | sending index offset =>
      simp only [TcpState.serverSend, hpc, Option.map_eq_some_iff] at hs
      obtain ⟨responses, hsend, rfl⟩ := hs
      have hserver := hat.server
      simp only [TcpServer.At, hpc] at hserver
      obtain ⟨hindex, hmessages, hmessage, hoffset, rfl, rfl⟩ := hserver
      rw [hmessage] at hsend
      obtain ⟨count, hle, hsends, hcarries⟩ :=
        TcpSetup.carries_send hat.responses hindex hoffset.le hsend
      apply hat.ofServer
      · rfl
      · simp [hpc]
      · apply hat.requests
      · apply hcarries
      · apply TcpServer.at_settleSend _ hle hindex hmessages hmessage
        rw [hmessage]
        apply hsends
  | _ => simp [TcpState.serverSend, hpc] at hs

/-- A message is counted when it is echoed. -/
theorem Inv.serverCount (h : s.Inv u) (hs : s.serverCount u = some s') : s'.Inv u := by
  obtain ⟨sent, served, echoed, received, hat⟩ := h
  cases hpc : s.server.pc with
  | counting index =>
      simp only [TcpState.serverCount, hpc, Option.some.injEq] at hs
      subst hs
      have hserver := hat.server
      simp only [TcpServer.At, hpc] at hserver
      obtain ⟨hindex, hmessages, hmessage, rfl, rfl⟩ := hserver
      apply hat.ofServer
      · rfl
      · simp [hpc]
      · apply hat.requests
      · apply hat.responses
      · apply TcpServer.at_next
        · simp only [hmessage]
          apply u.length_message
        · apply hindex
        · simp only [hmessages]
          rw [UInt64.ofNat_add]
          rfl
  | _ => simp [TcpState.serverCount, hpc] at hs

theorem Inv.serverFinish (h : s.Inv u) (hs : s.serverFinish = some s') : s'.Inv u := by
  obtain ⟨sent, served, echoed, received, hat⟩ := h
  cases hpc : s.server.pc with
  | leaving =>
      simp only [TcpState.serverFinish, hpc, Option.some.injEq] at hs
      subst hs
      have hserver := hat.server
      simp only [TcpServer.At, hpc] at hserver
      apply hat.ofServer
      · rfl
      · simp [hpc]
      · apply hat.requests
      · apply hat.responses
      · apply hserver
  | _ => simp [TcpState.serverFinish, hpc] at hs

theorem Inv.serverThrow (h : s.Inv u) {operation : String}
    (hs : s.serverThrow operation = some s') :
  s'.Inv u
  := by
  obtain ⟨sent, served, echoed, received, hat⟩ := h
  have hrunning : s.server.pc ≠ .finished := by
    intro hpc
    simp [TcpState.serverThrow, hpc] at hs
  have heq : s' = { s with server := { s.server with pc := .failing (.system operation) } } := by
    cases hpc : s.server.pc <;> simp [TcpState.serverThrow, hpc] at hs <;> exact hs.symm
  subst heq
  apply hat.ofServer
  · rfl
  · apply hrunning
  · apply hat.requests
  · apply hat.responses
  · use trivial
    apply hat.server.sent_le

theorem Inv.serverFail (h : s.Inv u) (hs : s.serverFail = some s') : s'.Inv u := by
  obtain ⟨sent, served, echoed, received, hat⟩ := h
  cases hpc : s.server.pc with
  | failing failure =>
      simp only [TcpState.serverFail, hpc, Option.some.injEq] at hs
      subst hs
      have hserver := hat.server
      simp only [TcpServer.At, hpc] at hserver
      apply hat.ofServer
      · rfl
      · simp [hpc]
      · apply hat.requests
      · apply hat.responses
      · apply hserver
  | _ => simp [TcpState.serverFail, hpc] at hs

/-! ### Steps of the client -/

theorem Inv.clientLoad (h : s.Inv u) {place : ℕ} (hs : s.clientLoad u place = some s') :
  s'.Inv u
  := by
  obtain ⟨sent, served, echoed, received, hat⟩ := h
  simp only [TcpState.clientLoad, Option.bind_eq_some_iff, Option.map_eq_some_iff] at hs
  obtain ⟨state, -, client, hload, rfl⟩ := hs
  cases hpc : s.client.pc with
  | starting =>
      simp only [TcpClient.load, hpc, Option.some.injEq] at hload
      subst hload
      have hclient := hat.live (by simp [hpc])
      simp only [TcpClient.At, hpc] at hclient
      obtain ⟨hinitial, rfl, rfl⟩ := hclient
      apply hat.ofClient
      · rfl
      · apply hat.requests
      · apply hat.responses
      · rw [hinitial]
        split_ifs
        · use rfl, rfl
        · use rfl, rfl
  | started =>
      simp only [TcpClient.load, hpc, Option.some.injEq] at hload
      subst hload
      have hclient := hat.live (by simp [hpc])
      simp only [TcpClient.At, hpc] at hclient
      obtain ⟨hinitial, rfl, rfl⟩ := hclient
      apply hat.ofClient
      · rfl
      · apply hat.requests
      · apply hat.responses
      · split_ifs
        · rw [hinitial]
          use rfl, rfl
        · apply TcpClient.at_begin
          rw [hinitial]
  | _ => simp [TcpClient.load, hpc] at hload

theorem Inv.clientWrite (h : s.Inv u) {now : UInt64} (hs : s.clientWrite u now = some s') :
  s'.Inv u
  := by
  obtain ⟨sent, served, echoed, received, hat⟩ := h
  cases hpc : s.client.pc with
  | writing loop index =>
      simp only [TcpState.clientWrite, hpc, Option.some.injEq] at hs
      subst hs
      have hclient := hat.live (by simp [hpc])
      simp only [TcpClient.At, hpc] at hclient
      obtain ⟨hindex, hready, rfl, rfl⟩ := hclient
      apply hat.ofClient
      · rfl
      · apply hat.requests
      · apply hat.responses
      · apply TcpClient.at_write hindex hready
  | _ => simp [TcpState.clientWrite, hpc] at hs

theorem Inv.clientSend (h : s.Inv u) {outcome : SendOutcome}
    (hs : s.clientSend outcome = some s') :
  s'.Inv u
  := by
  obtain ⟨sent, served, echoed, received, hat⟩ := h
  cases hpc : s.client.pc with
  | sending loop index started offset =>
      simp only [TcpState.clientSend, hpc, Option.map_eq_some_iff] at hs
      obtain ⟨requests, hsend, rfl⟩ := hs
      have hclient := hat.live (by simp [hpc])
      simp only [TcpClient.At, hpc] at hclient
      obtain ⟨hindex, hready, houtbound, hoffset, rfl, rfl⟩ := hclient
      rw [houtbound] at hsend
      obtain ⟨count, hle, hsends, hcarries⟩ :=
        TcpSetup.carries_send hat.requests hindex.place_lt hoffset.le hsend
      apply hat.ofClient
      · rfl
      · apply hcarries
      · apply hat.responses
      · apply TcpClient.at_settleSend _ hle hindex hready houtbound
        rw [houtbound]
        apply hsends
  | _ => simp [TcpState.clientSend, hpc] at hs

theorem Inv.clientReceive (h : s.Inv u) {answer : StreamAnswer} {now : UInt64}
    (hs : s.clientReceive u answer now = some s') :
  s'.Inv u
  := by
  obtain ⟨sent, served, echoed, received, hat⟩ := h
  cases hpc : s.client.pc with
  | receiving loop index started r =>
      simp only [TcpState.clientReceive, hpc, Option.map_eq_some_iff] at hs
      obtain ⟨⟨outcome, responses⟩, hrecv, rfl⟩ := hs
      have hclient := hat.live (by simp [hpc])
      simp only [TcpClient.At, hpc] at hclient
      obtain ⟨hindex, hready, houtbound, hreceives, rfl, rfl⟩ := hclient
      have hlength := u.length_message (u.place loop index)
      have hoffset := hreceives.again_lt r rfl
      have hbytes := hreceives.length_eq
      rw [hbytes, hlength] at hrecv hoffset
      obtain ⟨count, hle, hdelivered, hcarries⟩ :=
        TcpSetup.carries_recv hat.responses hindex.place_lt hoffset.le hrecv
      apply hat.ofClient
      · rfl
      · apply hat.requests
      · apply hcarries
      · apply TcpClient.at_settleReceive _ hle hindex hready houtbound
        apply hreceives.turn _ hdelivered
        rw [hlength]
        apply hle
  | _ => simp [TcpState.clientReceive, hpc] at hs

theorem Inv.clientExamine (h : s.Inv u) {now : UInt64} (hs : s.clientExamine u now = some s') :
  s'.Inv u
  := by
  obtain ⟨sent, served, echoed, received, hat⟩ := h
  cases hpc : s.client.pc with
  | exchanged loop index started =>
      simp only [TcpState.clientExamine, hpc, Option.some.injEq] at hs
      subst hs
      have hclient := hat.live (by simp [hpc])
      simp only [TcpClient.At, hpc] at hclient
      obtain ⟨hindex, hready, houtbound, hinbound, rfl, rfl⟩ := hclient
      apply hat.ofClient
      · rfl
      · apply hat.requests
      · apply hat.responses
      · apply TcpClient.at_examine hindex hready houtbound hinbound
  | _ => simp [TcpState.clientExamine, hpc] at hs

/-- What is thrown again after the server is joined. -/
theorem At.rethrow (h : s.At u sent served echoed received) {failure : TcpFailure}
    (hfailure : failure.External) :
  Inv u { s with client := { s.client with pc := .thrown failure } }
  := by
  apply h.ofClient
  · rfl
  · apply h.requests
  · apply h.responses
  · use hfailure
    apply h.sent_le

theorem Inv.clientJoin (h : s.Inv u) (hs : s.clientJoin u = some s') : s'.Inv u := by
  obtain ⟨sent, served, echoed, received, hat⟩ := h
  have hserver := hat.server
  cases hpc : s.client.pc with
  | startFailed =>
      cases hserverPc : s.server.pc with
      | failed failure =>
          simp only [TcpState.clientJoin, hpc, hserverPc, Option.some.injEq] at hs
          subst hs
          simp only [TcpServer.At, hserverPc] at hserver
          apply hat.rethrow hserver.1
      | _ => simp [TcpState.clientJoin, hpc, hserverPc] at hs
  | joining =>
      cases hserverPc : s.server.pc with
      | failed failure =>
          simp only [TcpState.clientJoin, hpc, hserverPc, Option.some.injEq] at hs
          subst hs
          simp only [TcpServer.At, hserverPc] at hserver
          apply hat.rethrow hserver.1
      | finished =>
          have hclient := hat.live (by simp [hpc])
          simp only [TcpClient.At, hpc] at hclient
          simp only [TcpServer.At, hserverPc] at hserver
          obtain ⟨result, haccount, -⟩ := hclient.1.account hserver.1
          simp only [TcpState.clientJoin, hpc, hserverPc, haccount, Option.some.injEq] at hs
          subst hs
          refine ⟨sent, served, echoed, received, hat.requests, hat.responses, hat.server, ?_,
            hat.sent_le⟩
          right
          refine ⟨result, ?_, hclient.2⟩
          constructor
          · rfl
          · apply hserverPc
          · exact { hclient.1 with }
          · apply haccount
      | _ => simp [TcpState.clientJoin, hpc, hserverPc] at hs
  | rejoining failure =>
      have hclient := hat.live (by simp [hpc])
      simp only [TcpClient.At, hpc] at hclient
      cases hserverPc : s.server.pc with
      | failed _ =>
          simp only [TcpState.clientJoin, hpc, hserverPc, Option.some.injEq] at hs
          subst hs
          apply hat.rethrow hclient.1
      | finished =>
          simp only [TcpState.clientJoin, hpc, hserverPc, Option.some.injEq] at hs
          subst hs
          apply hat.rethrow hclient.1
      | _ => simp [TcpState.clientJoin, hpc, hserverPc] at hs
  | _ => simp [TcpState.clientJoin, hpc] at hs

theorem Inv.clientShutdown (h : s.Inv u) (hs : s.clientShutdown = some s') : s'.Inv u := by
  obtain ⟨sent, served, echoed, received, hat⟩ := h
  cases hpc : s.client.pc with
  | unwinding failure =>
      simp only [TcpState.clientShutdown, hpc, Option.some.injEq] at hs
      subst hs
      have hclient := hat.live (by simp [hpc])
      simp only [TcpClient.At, hpc] at hclient
      apply hat.ofClient
      · rfl
      · apply hat.requests
      · apply hat.responses
      · apply hclient
  | _ => simp [TcpState.clientShutdown, hpc] at hs

theorem Inv.clientThrow (h : s.Inv u) {operation : String}
    (hs : s.clientThrow operation = some s') :
  s'.Inv u
  := by
  obtain ⟨sent, served, echoed, received, hat⟩ := h
  have heq : s' = { s with client := s.client.throw (.system operation) } := by
    cases hpc : s.client.pc <;> simp [TcpState.clientThrow, hpc] at hs <;> exact hs.symm
  subst heq
  apply hat.ofClient
  · rfl
  · apply hat.requests
  · apply hat.responses
  · use trivial
    apply hat.sent_le

/-! ### Every run -/

theorem Inv.step {action : TcpAction} (h : s.Inv u) (hs : s.step u action = some s') :
  s'.Inv u
  := by
  cases action with
  | serverStart => apply h.serverStart hs
  | serverReceive answer now => apply h.serverReceive hs
  | serverSend outcome => apply h.serverSend hs
  | serverCount => apply h.serverCount hs
  | serverFinish => apply h.serverFinish hs
  | serverThrow operation => apply h.serverThrow hs
  | serverFail => apply h.serverFail hs
  | clientLoad place => apply h.clientLoad hs
  | clientWrite now => apply h.clientWrite hs
  | clientSend outcome => apply h.clientSend hs
  | clientReceive answer now => apply h.clientReceive hs
  | clientExamine now => apply h.clientExamine hs
  | clientJoin => apply h.clientJoin hs
  | clientShutdown => apply h.clientShutdown hs
  | clientThrow operation => apply h.clientThrow hs

theorem inv_of_reachable (h : (tcpRun u).Reachable s) : s.Inv u :=
  h.invariant (inv_initial u) fun _ _ _ hinv hs => hinv.step hs

/-- When the client has returned, the server is joined, nothing is left in the connection and
the result is exact. -/
theorem Inv.returned (h : s.Inv u) {result : TcpResult} (hpc : s.client.pc = .returned result) :
  s.server.pc = .finished ∧ s.requests = [] ∧ s.responses = [] ∧ result.Exact u s.client.latencies
  := by
  obtain ⟨sent, served, echoed, received, hat⟩ := h
  rcases hat.client with hlive | ⟨result', hreturned, rfl, rfl⟩
  · simp only [TcpClient.At, hpc] at hlive
  · have hserver := hat.server
    have hfinished := hreturned.finished
    simp only [TcpServer.At, hfinished] at hserver
    obtain ⟨hmessages, rfl, rfl⟩ := hserver
    obtain ⟨exact, haccount, hexact⟩ := hreturned.ready.account hmessages
    have hpc' := hreturned.pc
    rw [hpc] at hpc'
    cases hpc'
    rw [hreturned.account] at haccount
    cases haccount
    use hfinished, hat.requests.eq_nil_iff.mpr rfl, hat.responses.eq_nil_iff.mpr rfl

end TcpState

/-- In every run, however the kernel cuts the two streams, each message comes back as it was
sent, and no more than one message is on its way. An exception comes from the kernel, the clock
or the connection, never from a check of a message, of the message count or of the checksum. A
run that returns has left nothing in the connection, and has taken every sample and counted no
event. The summarizer takes its row exactly when the columns of the clocks, of the processor and
of the sockets pass its checks, the checksum is not zero and the profile leaves `TCP_NODELAY` as
it is. -/
theorem tcp_exact (u : TcpSetup) {s : TcpState} (h : (tcpRun u).Reachable s) :
  (∀ loop index started, s.client.pc = .exchanged loop index started →
    s.client.outbound = u.message (u.place loop index)
      ∧ s.client.inbound = u.message (u.place loop index)) ∧
  (∀ index, s.server.pc = .counting index →
    s.server.message = u.message index ∧ s.server.messages = UInt64.ofNat index) ∧
  s.requests.length + s.responses.length ≤ u.payloadBytes ∧
  (∀ failure, s.client.pc = .unwinding failure ∨ s.client.pc = .thrown failure →
    failure.External) ∧
  (∀ failure, s.server.pc = .failed failure → failure.External) ∧
  ∀ result, s.client.pc = .returned result →
    s.server.pc = .finished ∧ s.requests = [] ∧ s.responses = [] ∧
      result.Exact u s.client.latencies ∧
      ∃ l, result.latencies = some l ∧ ∀ d lineNumber,
        Summarize.validateRow (result.accounting.tcpRow u l d) lineNumber = .ok () ↔
          Summarize.Measured d.metrics d.buffers ∧ 0 < d.connectNs ∧
            0 < result.accounting.checksum ∧ u.options.profile.tcpNodelay = false
  := by
  have hinv := TcpState.inv_of_reachable h
  have hreturned (result : TcpResult) (hpc : s.client.pc = .returned result) :=
    hinv.returned hpc
  obtain ⟨sent, served, echoed, received, hat⟩ := hinv
  refine ⟨?_, ?_, ?_, ?_, ?_, ?_⟩
  · intro loop index started hpc
    have hclient := hat.live (by simp [hpc])
    simp only [TcpClient.At, hpc] at hclient
    use hclient.2.2.1, hclient.2.2.2.1
  · intro index hpc
    have hserver := hat.server
    simp only [TcpServer.At, hpc] at hserver
    use hserver.2.2.1, hserver.2.1
  · have hrequests := hat.requests.length
    have hresponses := hat.responses.length
    have hserved := hat.requests.start_le
    have hechoed := hat.server.sent_le
    have hreceived := hat.responses.start_le
    have hsent := hat.sent_le
    omega
  · rintro failure (hpc | hpc)
    · have hclient := hat.live (by simp [hpc])
      simp only [TcpClient.At, hpc] at hclient
      apply hclient.1
    · have hclient := hat.live (by simp [hpc])
      simp only [TcpClient.At, hpc] at hclient
      apply hclient.1
  · intro failure hpc
    have hserver := hat.server
    simp only [TcpServer.At, hpc] at hserver
    apply hserver.1
  · intro result hpc
    obtain ⟨hfinished, hrequests, hresponses, hexact⟩ := hreturned result hpc
    use hfinished, hrequests, hresponses, hexact
    apply hexact.validateRow_iff

/-- One warm-up message and two measured ones. -/
def threeMessages : TcpSetup where
  options := UdpState.twoSamples.options
  payloadBytes := UdpState.twoSamples.payloadBytes
  payloadBytes_mem := UdpState.twoSamples.payloadBytes_mem

/-- The first message is cut on its way, and the echo of the last one. -/
def cutMessages : List TcpAction :=
  [.clientLoad 0, .serverStart, .clientLoad 1, .clientLoad 1,
    .clientWrite 100, .clientSend (.sent 3), .serverReceive (.deliver 2) 100,
    .clientSend (.failed Sockets.EINTR), .clientSend (.sent 5), .serverReceive (.deliver 6) 100,
    .serverSend (.sent 8), .serverCount, .clientReceive (.deliver 8) 150, .clientExamine 200,
    .clientWrite 300, .clientSend (.sent 8), .serverReceive (.deliver 8) 310,
    .serverSend (.sent 8), .clientReceive (.deliver 8) 320, .serverCount, .clientExamine 350,
    .clientWrite 400, .clientSend (.sent 8), .serverReceive (.deliver 8) 410,
    .serverSend (.sent 1), .clientReceive (.deliver 1) 420, .serverSend (.sent 7),
    .clientReceive (.deliver 7) 430, .clientExamine 430, .serverCount, .serverFinish, .clientJoin]

/-- The checksum of the two measured messages. -/
theorem checksum_threeMessages :
  0 < TcpClient.checksumOf threeMessages threeMessages.options.samples
  := by
  decide +kernel

/-- A run with options that `parse_options` accepts. -/
theorem tcp_exact_cutMessages :
  parseOptions 1 2 1 threeMessages.options.profile = .ok threeMessages.options ∧
  ∃ s result, (tcpRun threeMessages).run cutMessages (tcpRun threeMessages).initial = some s ∧
    s.client.pc = .returned result ∧ s.client.latencies = [50, 30] ∧ s.server.pc = .finished ∧
    ∃ l, result.latencies = some l ∧ ∀ d lineNumber,
      Summarize.validateRow (result.accounting.tcpRow threeMessages l d) lineNumber = .ok () ↔
        Summarize.Measured d.metrics d.buffers ∧ 0 < d.connectNs
  := by
  use rfl
  have hrun : ∃ s result,
      (tcpRun threeMessages).run cutMessages (tcpRun threeMessages).initial = some s ∧
      s.client.pc = .returned result ∧ s.client.latencies = [50, 30] ∧
      s.server.pc = .finished := ⟨_, _, rfl, rfl, rfl, rfl⟩
  obtain ⟨s, result, hrun, hpc, hlatencies, hfinished⟩ := hrun
  obtain ⟨-, -, -, hexact, l, hl, hrow⟩ :=
    (tcp_exact threeMessages ⟨cutMessages, hrun⟩).2.2.2.2.2 result hpc
  have hchecksum : 0 < result.accounting.checksum := by
    rw [hexact.accounting]
    apply checksum_threeMessages
  use s, result, hrun, hpc, hlatencies, hfinished, l, hl
  intro d lineNumber
  rw [hrow]
  constructor
  · rintro ⟨hmeasured, hconnect, -⟩
    use hmeasured
  · rintro ⟨hmeasured, hconnect⟩
    use hmeasured, hconnect, hchecksum
    rfl

end SocketLatency
