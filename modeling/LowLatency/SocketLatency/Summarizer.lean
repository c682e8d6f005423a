import LowLatency.Library.OrderStatistics
import LowLatency.Library.Raising
import Mathlib.Data.Int.Notation

/-!
# The summarizer

The checks which `validate_row` of the summarizer makes of a row of the socket benchmark, in
their order.
-/

namespace Summarize

/-- The columns of a row that account for its requests. -/
structure Row where
  successfulSamples : ℤ
  attemptedSamples : ℤ
  udpDeadlineMisses : ℤ
  udpRequestsUnobserved : ℤ
  udpResponseDeadlineMisses : ℤ

/-- The columns of floats. -/
structure FloatColumns where
  validatedRoundTripsPerSecond : Float
  applicationMessagesPerSecond : Float
  clientCpuPercent : Float
  serverCpuPercent : Float
  processCpuPercent : Float
  clientCpuNsPerAttempt : Float
  serverCpuNsPerAttempt : Float

def FloatColumns.values (c : FloatColumns) : List Float :=
  [c.validatedRoundTripsPerSecond, c.applicationMessagesPerSecond, c.clientCpuPercent,
    c.serverCpuPercent, c.processCpuPercent, c.clientCpuNsPerAttempt, c.serverCpuNsPerAttempt]

/-- The columns of the socket buffers. -/
structure BufferColumns where
  clientSendBufferBytes : ℤ
  clientReceiveBufferBytes : ℤ
  serverSendBufferBytes : ℤ
  serverReceiveBufferBytes : ℤ

def BufferColumns.values (c : BufferColumns) : List ℤ :=
  [c.clientSendBufferBytes, c.clientReceiveBufferBytes, c.serverSendBufferBytes,
    c.serverReceiveBufferBytes]

/-- The columns that `validate_row` reads. The percentiles are those from `min_ns` to `max_ns`,
the context switches those of the client and of the server, and the UDP events are the duplicate,
the reordered, the invalid and the truncated ones. -/
structure CsvRow extends Row where
  protocol : String
  warmup : ℤ
  udpDeadlineMs : ℤ
  percentiles : List ℤ
  metrics : FloatColumns
  contextSwitches : List ℤ
  tcpConnectNs : ℤ
  buffers : BufferColumns
  clientTcpNodelay : ℤ
  serverTcpNodelay : ℤ
  udpEvents : List ℤ
  checksum : ℤ

/-- The `ValueError` of a row. -/
def rowError (lineNumber : ℕ) (text : String) : Except String Unit :=
  .error ("row " ++ toString lineNumber ++ " " ++ text)

/-- The throughput of messages is not twice that of round trips, up to the printed digits. -/
def FloatColumns.inconsistent (c : FloatColumns) : Bool :=
  (c.applicationMessagesPerSecond - 2.0 * c.validatedRoundTripsPerSecond).abs > 0.002

/-- `validate_row` -/
def validateRow (row : CsvRow) (lineNumber : ℕ) : Except String Unit :=
  if row.successfulSamples ≤ 0 ∨ row.attemptedSamples ≤ 0 ∨
      row.successfulSamples > row.attemptedSamples then
    rowError lineNumber "has invalid sample accounting"
  else if row.warmup ≤ 0 ∨ row.udpDeadlineMs ≤ 0 then
    rowError lineNumber "has an invalid warm-up or deadline"
  else if row.percentiles.headD 0 ≤ 0 ∨
      row.percentiles ≠ OrderStatistics.sorted row.percentiles then
    rowError lineNumber "has invalid latency percentiles"
  else if row.metrics.values.any (fun x => !x.isFinite) then
    rowError lineNumber "has a non-finite metric"
  else if row.metrics.values.any (fun x => x ≤ 0) then
    rowError lineNumber "has a non-positive rate or CPU metric"
  else if row.metrics.inconsistent then
    rowError lineNumber "has inconsistent message throughput"
  else if row.buffers.values.any (· ≤ 0) then
    rowError lineNumber "has an invalid socket buffer default"
  else if row.checksum ≤ 0 then
    rowError lineNumber "has an invalid checksum"
  else if row.contextSwitches.any (· < 0) ∨ row.udpDeadlineMisses < 0 ∨
      row.udpRequestsUnobserved < 0 ∨ row.udpResponseDeadlineMisses < 0 ∨
      row.udpEvents.any (· < 0) then
    rowError lineNumber "has a negative event count"
  else if row.protocol = "tcp" then
    if row.successfulSamples ≠ row.attemptedSamples ∨ row.udpDeadlineMisses ≠ 0 then
      rowError lineNumber "has incomplete TCP accounting"
    else if row.clientTcpNodelay ≠ 0 ∨ row.serverTcpNodelay ≠ 0 then
      rowError lineNumber "is not a default-Nagle TCP run"
    else if row.tcpConnectNs ≤ 0 then
      rowError lineNumber "lacks a TCP connect diagnostic"
    else if row.udpRequestsUnobserved ≠ 0 ∨ row.udpResponseDeadlineMisses ≠ 0 ∨
        row.udpEvents.any (· ≠ 0) then
      rowError lineNumber "has UDP events in a TCP run"
    else .ok ()
  else if row.protocol = "udp" then
    if row.udpDeadlineMisses ≠ row.attemptedSamples - row.successfulSamples then
      rowError lineNumber "has inconsistent deadline misses"
    else if row.udpRequestsUnobserved + row.udpResponseDeadlineMisses ≠
        row.attemptedSamples - row.successfulSamples then
      rowError lineNumber "has inconsistent UDP accounting"
    else if row.clientTcpNodelay ≠ -1 ∨ row.serverTcpNodelay ≠ -1 then
      rowError lineNumber "has invalid UDP TCP_NODELAY fields"
    else if row.tcpConnectNs ≠ 0 then
      rowError lineNumber "has a UDP connect diagnostic"
    else .ok ()
  else rowError lineNumber "has an unknown protocol"

/-- Those checks of `validate_row` which account for the requests of a UDP row. It makes the
others of a UDP row too. -/
def validateUdpRow (row : Row) (lineNumber : ℕ) : Except String Unit :=
  let successful := row.successfulSamples
  let attempted := row.attemptedSamples
  if successful ≤ 0 ∨ attempted ≤ 0 ∨ successful > attempted then
    .error ("row " ++ toString lineNumber ++ " has invalid sample accounting")
  else if row.udpDeadlineMisses < 0 ∨ row.udpRequestsUnobserved < 0 ∨
      row.udpResponseDeadlineMisses < 0 then
    .error ("row " ++ toString lineNumber ++ " has a negative event count")
  else
    let deadlineMisses := attempted - successful
    if row.udpDeadlineMisses ≠ deadlineMisses then
      .error ("row " ++ toString lineNumber ++ " has inconsistent deadline misses")
    else if row.udpRequestsUnobserved + row.udpResponseDeadlineMisses ≠ deadlineMisses then
      .error ("row " ++ toString lineNumber ++ " has inconsistent UDP accounting")
    else .ok ()

/-- What a row is to have in the columns that come from the clocks, the processor and the
buffers of the sockets. -/
structure Measured (metrics : FloatColumns) (buffers : BufferColumns) : Prop where
  finite : ∀ x ∈ metrics.values, x.isFinite = true
  positive : ∀ x ∈ metrics.values, ¬x ≤ 0
  consistent : metrics.inconsistent = false
  buffers : ∀ x ∈ buffers.values, 0 < x

/-- What `validate_row` accepts of a TCP run. -/
structure CsvRow.IsTcp (row : CsvRow) : Prop where
  successful_pos : 0 < row.successfulSamples
  complete : row.attemptedSamples = row.successfulSamples
  warmup_pos : 0 < row.warmup
  deadline_pos : 0 < row.udpDeadlineMs
  percentiles_pos : 0 < row.percentiles.headD 0
  sorted : row.percentiles = OrderStatistics.sorted row.percentiles
  measured : Measured row.metrics row.buffers
  checksum_pos : 0 < row.checksum
  switches : ∀ x ∈ row.contextSwitches, 0 ≤ x
  misses : row.udpDeadlineMisses = 0
  unobserved : row.udpRequestsUnobserved = 0
  response : row.udpResponseDeadlineMisses = 0
  events : ∀ x ∈ row.udpEvents, x = 0
  clientNagle : row.clientTcpNodelay = 0
  serverNagle : row.serverTcpNodelay = 0
  connect_pos : 0 < row.tcpConnectNs

theorem rowError_or_eq_ok {c : Prop} [Decidable c] {lineNumber : ℕ} {text : String}
    {x : Except String Unit} :
  (if c then rowError lineNumber text else x) = .ok () ↔ ¬c ∧ x = .ok ()
  := Raising.raise_or_eq_ok

/-- `validate_row` on a row of a TCP run. -/
theorem validateRow_eq_ok_iff {row : CsvRow} (hprotocol : row.protocol = "tcp")
    (lineNumber : ℕ) :
  validateRow row lineNumber = .ok () ↔ row.IsTcp
  := by
  simp only [validateRow, hprotocol, if_true, rowError_or_eq_ok, not_or, not_not,
    Bool.not_eq_true, List.any_eq_false, Bool.not_eq_false', decide_eq_false_iff_not,
    Int.not_le, Int.not_lt, and_true]
  constructor
  · rintro ⟨⟨hsuccessful, -, -⟩, ⟨hwarmup, hdeadline⟩, ⟨hfirst, hsorted⟩, hfinite, hpositive,
      hconsistent, hbuffers, hchecksum, ⟨hswitches, -⟩, ⟨hcomplete, hmisses⟩,
      ⟨hclient, hserver⟩, hconnect, hunobserved, hresponse, hevents⟩
    exact
      { successful_pos := hsuccessful
        complete := hcomplete.symm
        warmup_pos := hwarmup
        deadline_pos := hdeadline
        percentiles_pos := hfirst
        sorted := hsorted
        measured := ⟨hfinite, hpositive, hconsistent, hbuffers⟩
        checksum_pos := hchecksum
        switches := hswitches
        misses := hmisses
        unobserved := hunobserved
        response := hresponse
        events := hevents
        clientNagle := hclient
        serverNagle := hserver
        connect_pos := hconnect }
  · intro h
    have hpos := h.successful_pos
    have hcomplete := h.complete
    have hcounts : 0 ≤ row.udpDeadlineMisses ∧ 0 ≤ row.udpRequestsUnobserved ∧
        0 ≤ row.udpResponseDeadlineMisses := by
      rw [h.misses, h.unobserved, h.response]
      simp
    have hevents : ∀ x ∈ row.udpEvents, 0 ≤ x := by
      intro x hx
      rw [h.events x hx]
    use ⟨hpos, by omega, by omega⟩, ⟨h.warmup_pos, h.deadline_pos⟩
    use ⟨h.percentiles_pos, h.sorted⟩, h.measured.finite, h.measured.positive
    use h.measured.consistent, h.measured.buffers, h.checksum_pos
    use ⟨h.switches, hcounts.1, hcounts.2.1, hcounts.2.2, hevents⟩
    use ⟨hcomplete.symm, h.misses⟩, ⟨h.clientNagle, h.serverNagle⟩, h.connect_pos
    use h.unobserved, h.response, h.events

end Summarize
