import LowLatency.SocketLatency.UdpCounters
import Mathlib.Order.Interval.Finset.Nat

/-!
# The anomaly counters of the client of a UDP run

The counters of the client depend on the datagrams of its measured loop only: not on the
attempts they arrive in, on the clock, or on the samples taken. With those of the server they
say what has happened to the datagrams of a run.
-/

namespace SocketLatency

open FirstArrivals
open Sockets (Byte)

variable {Address : Type} [DecidableEq Address]

namespace UdpSetup

variable (u : UdpSetup Address)

/-- The message of a sequence. -/
def message (observed : UInt32) : List Byte :=
  header .udp observed ++ pattern u.payloadBytes

/-- What the measured loop of the client takes a datagram for. -/
def response (d : Datagram Address) : DatagramKind :=
  if d.bytes.length > u.payloadBytes then .truncated
  else if d.bytes.length ≠ u.payloadBytes ∨
      (¬u.options.profile.udpConnected ∧ d.source ≠ u.serverAddress) then .invalid
  else
    match readSequence d.bytes .udp with
    | .error _ => .invalid
    | .ok observed =>
        if observed.toNat < u.options.warmup ∨ observed.toNat ≥ u.options.total then .invalid
        else if d.bytes ≠ u.message observed then .invalid
        else .message observed.toNat

omit [DecidableEq Address] in
/-- The payload holds a header. -/
theorem eight_le_payloadBytes : 8 ≤ u.payloadBytes := by
  have hmem := u.payloadBytes_mem
  simp only [payloadSizes, List.mem_cons, List.not_mem_nil, or_false] at hmem
  omega

omit [DecidableEq Address] in
/-- A message has the length and the pattern of the run. -/
theorem message_expected (observed : UInt32) :
  (u.message observed).length = u.payloadBytes
    ∧ (u.message observed).drop 8 = pattern u.payloadBytes
  := by
  have hheader := length_header .udp observed
  have hpayload := u.eight_le_payloadBytes
  constructor
  · rw [message, List.length_append, hheader, pattern, List.length_drop, List.length_map,
      List.length_range]
    omega
  · rw [message, List.drop_left' hheader]

end UdpSetup

/-! ### The loops of the client -/

/-- What may happen in the loops of the client: a request is sent, a datagram arrives before the
deadline, the deadline passes, or `server_state` is loaded. -/
inductive ClientAction (Address : Type) where
  | send (now : UInt64)
  | receive (receivedAt : UInt64) (datagram : Datagram Address)
  | timeout
  | load (state : ℤ)

/-- The client and the datagrams that its measured loop has received, over all attempts. -/
structure ClientRun (Address : Type) where
  client : Client
  received : List (Datagram Address)

namespace ClientRun

variable (u : UdpSetup Address)

def step (r : ClientRun Address) : ClientAction Address → Option (ClientRun Address)
  | .send now =>
      match r.client.pc with
      | .sending loop index =>
          match writeHeader r.client.outbound .udp (u.sequence loop index) with
          | .error message => some { r with client := r.client.throw (.wire message) }
          | .ok outbound =>
              some { r with
                client := { r.client with outbound := outbound, pc := .checking loop index now } }
      | _ => none
  | .receive receivedAt d =>
      match r.client.pc with
      | .checking .warmup index sentAt =>
          some { r with client := r.client.receive u index sentAt receivedAt d .warmup }
      | .checking .measured index sentAt =>
          some
            { client := r.client.receive u index sentAt receivedAt d .measured
              received := r.received ++ [d] }
      | _ => none
  | .timeout =>
      match r.client.pc with
      | .checking loop index _ => some { r with client := r.client.miss loop index }
      | _ => none
  | .load state => (r.client.load u state).map fun client => { r with client := client }

end ClientRun

namespace Client

/-- What the client reports of the datagrams that its measured loop has received. -/
structure Reports (u : UdpSetup Address) (ds : List (Datagram Address)) (c : Client) : Prop where
  inbound : c.inbound.length = u.payloadBytes
  outbound : c.outbound.length = u.payloadBytes
  expected : c.expected.length = u.payloadBytes ∧ c.expected.drop 8 = pattern u.payloadBytes
  arrivals : c.arrivals.Reports u.options.warmup u.options.samples
    (measured u.options.warmup (ds.map u.response))
  truncated : c.truncated
    = UInt64.ofNat ((classes u.options.warmup (ds.map u.response)).count .truncated)
  invalid : c.invalid
    = UInt64.ofNat ((classes u.options.warmup (ds.map u.response)).count .invalid)

/-- The client moves without receiving. -/
structure Moves (c c' : Client) : Prop where
  inbound : c'.inbound.length = c.inbound.length
  outbound : c'.outbound.length = c.outbound.length
  expected : c'.expected = c.expected
  arrivals : c'.arrivals = c.arrivals
  truncated : c'.truncated = c.truncated
  invalid : c'.invalid = c.invalid

variable {u : UdpSetup Address} {c c' : Client} {d : Datagram Address}
  {ds : List (Datagram Address)}

theorem Reports.moves (h : Reports u ds c) (hmoves : Moves c c') :
  Reports u ds c'
  := by
  constructor
  · rw [hmoves.inbound, h.inbound]
  · rw [hmoves.outbound, h.outbound]
  · rw [hmoves.expected]
    apply h.expected
  · rw [hmoves.arrivals]
    apply h.arrivals
  · rw [hmoves.truncated, h.truncated]
  · rw [hmoves.invalid, h.invalid]

theorem moves_throw (c : Client) (failure : UdpFailure) : Moves c (c.throw failure) :=
  ⟨rfl, rfl, rfl, rfl, rfl, rfl⟩

omit [DecidableEq Address] in
theorem moves_next (u : UdpSetup Address) (c : Client) (loop : Loop) (index : ℕ) :
  Moves c (c.next u loop index)
  := by
  cases loop with
  | warmup =>
      simp only [Client.next]
      split_ifs <;> exact ⟨rfl, rfl, rfl, rfl, rfl, rfl⟩
  | measured =>
      simp only [Client.next]
      split_ifs <;> exact ⟨rfl, rfl, rfl, rfl, rfl, rfl⟩

omit [DecidableEq Address] in
theorem moves_sample (c : Client) (index : ℕ) (sentAt receivedAt : UInt64) (observed : UInt32) :
  Moves c (c.sample u index sentAt receivedAt observed)
  := by
  rw [Client.sample]
  split_ifs
  · exact ⟨rfl, rfl, rfl, rfl, rfl, rfl⟩
  · apply moves_throw
  · have hnext := moves_next u
      { c with
        latencies := c.latencies ++ [receivedAt - sentAt]
        taken := c.taken ++ [(observed, receivedAt - sentAt)]
        checksum := updateChecksum c.checksum observed u.payloadBytes .udp } .measured (index + 1)
    exact ⟨hnext.inbound, hnext.outbound, hnext.expected, hnext.arrivals, hnext.truncated,
      hnext.invalid⟩

/-- One more datagram is reported by its class. -/
theorem Reports.concat {k : DatagramClass} (h : Reports u ds c)
    (hk : (u.response d).classify u.options.warmup
      (measured u.options.warmup (ds.map u.response)) = k)
    (hinbound : c'.inbound.length = u.payloadBytes) (houtbound : c'.outbound = c.outbound)
    (hexpected : c'.expected.length = u.payloadBytes ∧ c'.expected.drop 8 = pattern u.payloadBytes)
    (harrivals : c'.arrivals.Reports u.options.warmup u.options.samples
      (measured u.options.warmup (ds.map u.response)
        ++ ((u.response d).measured? u.options.warmup).toList))
    (htruncated : c'.truncated = c.truncated + if k = .truncated then 1 else 0)
    (hinvalid : c'.invalid = c.invalid + if k = .invalid then 1 else 0) :
  Reports u (ds ++ [d]) c'
  := by
  have hclasses : classes u.options.warmup ((ds ++ [d]).map u.response)
      = classes u.options.warmup (ds.map u.response) ++ [k] := by
    rw [classes_map_concat, hk]
  constructor
  · apply hinbound
  · rw [houtbound, h.outbound]
  · apply hexpected
  · rw [measured_map_concat]
    apply harrivals
  · rw [hclasses, ofNat_count_concat, ← h.truncated, htruncated]
  · rw [hclasses, ofNat_count_concat, ← h.invalid, hinvalid]

/-- A datagram that is rejected as too long. -/
theorem Reports.rejectTruncated (h : Reports u ds c) (hkind : u.response d = .truncated)
    {inbound : List Byte} (hinbound : inbound.length = u.payloadBytes) (index : ℕ)
    (sentAt : UInt64) :
  Reports u (ds ++ [d]) ({ c with inbound := inbound }.rejectTruncated index sentAt)
  := by
  apply h.concat (k := .truncated)
  · rw [hkind]
    rfl
  · apply hinbound
  · rfl
  · apply h.expected
  · apply h.arrivals.unmeasured
    rw [hkind]
    rfl
  · rfl
  · simp [Client.rejectTruncated, again]

/-- A datagram that is rejected as no message of the run. -/
theorem Reports.rejectInvalid (h : Reports u ds c) (hkind : u.response d = .invalid)
    {inbound expected : List Byte} (hinbound : inbound.length = u.payloadBytes)
    (hexpected : expected.length = u.payloadBytes ∧ expected.drop 8 = pattern u.payloadBytes)
    (index : ℕ) (sentAt : UInt64) :
  Reports u (ds ++ [d])
    ({ c with inbound := inbound, expected := expected }.rejectInvalid index sentAt)
  := by
  apply h.concat (k := .invalid)
  · rw [hkind]
    rfl
  · apply hinbound
  · rfl
  · apply hexpected
  · apply h.arrivals.unmeasured
    rw [hkind]
    rfl
  · simp [Client.rejectInvalid, again]
  · rfl

/-- A response. -/
theorem Reports.observe (h : Reports u ds c) {observed : UInt32}
    (hkind : u.response d = .message observed.toNat) (hwarmup : u.options.warmup ≤ observed.toNat)
    (htotal : observed.toNat < u.options.total) {inbound expected : List Byte}
    (hinbound : inbound.length = u.payloadBytes)
    (hexpected : expected.length = u.payloadBytes ∧ expected.drop 8 = pattern u.payloadBytes) :
  Reports u (ds ++ [d])
    { c with
      inbound := inbound
      expected := expected
      arrivals := c.arrivals.observe u.options.warmup observed }
  := by
  apply h.concat (k := (u.response d).classify u.options.warmup
    (measured u.options.warmup (ds.map u.response))) rfl
  · apply hinbound
  · rfl
  · apply hexpected
  · rw [hkind, DatagramKind.measured?, if_neg (Nat.not_lt.mpr hwarmup), Option.toList_some]
    apply h.arrivals.observe hwarmup htotal
  · rw [hkind, DatagramKind.classify]
    split_ifs <;> simp_all
  · rw [hkind, DatagramKind.classify]
    split_ifs <;> simp_all

/-- The measured loop receives a datagram, in whatever attempt. -/
theorem Reports.receive (h : Reports u ds c) (index : ℕ) (sentAt receivedAt : UInt64)
    (d : Datagram Address) :
  Reports u (ds ++ [d]) (c.receive u index sentAt receivedAt d .measured)
  := by
  have hlength : (recvmsg c.inbound d).2.length = u.payloadBytes := by
    rw [length_recvmsg, h.inbound]
  have hflag : (recvmsg c.inbound d).1.truncated = decide (u.payloadBytes < d.bytes.length) := by
    rw [← h.inbound]
    rfl
  have hbytes : (recvmsg c.inbound d).1.bytes = d.bytes.length := rfl
  have hpeer : (recvmsg c.inbound d).1.peer = d.source := rfl
  simp only [Client.receive, examineMeasured, hlength, hflag, hbytes, hpeer, decide_eq_true_iff,
    gt_iff_lt, or_self]
  by_cases htruncated : u.payloadBytes < d.bytes.length
  · rw [if_pos htruncated]
    apply h.rejectTruncated _ hlength
    rw [UdpSetup.response, if_pos htruncated]
  rw [if_neg htruncated]
  by_cases hsize : d.bytes.length ≠ u.payloadBytes ∨
      (¬u.options.profile.udpConnected ∧ d.source ≠ u.serverAddress)
  · rw [if_pos hsize]
    apply h.rejectInvalid _ hlength h.expected
    rw [UdpSetup.response, if_neg htruncated, if_pos hsize]
  rw [if_neg hsize]
  obtain ⟨hequal, -⟩ := not_or.mp hsize
  have hcontents : (recvmsg c.inbound d).2 = d.bytes := by
    apply recvmsg_eq
    rw [hbytes, h.inbound]
    apply not_not.mp hequal
  rw [hcontents] at hlength ⊢
  cases hread : readSequence d.bytes .udp with
  | error message =>
      apply h.rejectInvalid _ hlength h.expected
      simp only [UdpSetup.response, if_neg htruncated, if_neg hsize, hread, gt_iff_lt]
  | ok observed =>
      by_cases hrange : observed.toNat < u.options.warmup ∨ observed.toNat ≥ u.options.total
      · simp only [if_pos hrange]
        apply h.rejectInvalid _ hlength h.expected
        simp only [UdpSetup.response, if_neg htruncated, if_neg hsize, hread, if_pos hrange,
          gt_iff_lt]
      · have hheader : writeHeader c.expected .udp observed = .ok (u.message observed) := by
          rw [writeHeader_eq, h.expected.2]
          · rfl
          · rw [h.expected.1]
            apply u.eight_le_payloadBytes
        have hexpected := u.message_expected observed
        simp only [if_neg hrange, hheader]
        by_cases hmessage : d.bytes = u.message observed
        · rw [if_neg (not_not.mpr hmessage)]
          obtain ⟨hwarmup, htotal⟩ := not_or.mp hrange
          have hkind : u.response d = .message observed.toNat := by
            simp only [UdpSetup.response, if_neg htruncated, if_neg hsize, hread, if_neg hrange,
              if_neg (not_not.mpr hmessage), gt_iff_lt]
          have hobserve := h.observe hkind (Nat.le_of_not_lt hwarmup) (Nat.lt_of_not_le htotal)
            hlength hexpected
          rw [Arrivals.observe] at hobserve
          split_ifs at hobserve ⊢ with hseen
          · apply hobserve.moves
            exact ⟨rfl, rfl, rfl, rfl, rfl, rfl⟩
          · apply hobserve.moves
            apply moves_sample
        · rw [if_pos hmessage]
          apply h.rejectInvalid _ hlength hexpected
          simp only [UdpSetup.response, if_neg htruncated, if_neg hsize, hread, if_neg hrange,
            if_pos hmessage, gt_iff_lt]

/-- The buffers are initialised. -/
theorem reports_begin (hinbound : c.inbound.length = u.payloadBytes)
    (houtbound : c.outbound.length = u.payloadBytes)
    (hexpected : c.expected.length = u.payloadBytes)
    (harrivals : c.arrivals.Reports u.options.warmup u.options.samples
      (measured u.options.warmup (ds.map u.response)))
    (htruncated : c.truncated
      = UInt64.ofNat ((classes u.options.warmup (ds.map u.response)).count .truncated))
    (hinvalid : c.invalid
      = UInt64.ofNat ((classes u.options.warmup (ds.map u.response)).count .invalid)) :
  Reports u ds (c.begin u)
  := by
  have hpayload := u.eight_le_payloadBytes
  rw [Client.begin, initializeMessage_eq (by omega), initializeMessage_eq (by omega), houtbound,
    hexpected]
  apply Reports.moves _ (moves_next u _ .warmup 0)
  constructor
  · apply hinbound
  · apply (u.message_expected 0).1
  · apply u.message_expected 0
  · apply harrivals
  · apply htruncated
  · apply hinvalid

theorem reports_initial : Reports u [] ((initial u).begin u) := by
  apply reports_begin
  · apply List.length_replicate
  · apply List.length_replicate
  · apply List.length_replicate
  · apply Arrivals.reports_initial
  · rfl
  · rfl

/-- A load of `server_state`. -/
theorem Reports.load (h : Reports u ds c) {state : ℤ} (hload : c.load u state = some c') :
  Reports u ds c'
  := by
  simp only [Client.load] at hload
  split at hload
  case h_1 =>
    obtain rfl := Option.some.inj hload
    apply h.moves
    split_ifs <;> exact ⟨rfl, rfl, rfl, rfl, rfl, rfl⟩
  case h_2 =>
    obtain rfl := Option.some.inj hload
    split_ifs
    · apply h.moves
      exact ⟨rfl, rfl, rfl, rfl, rfl, rfl⟩
    · apply reports_begin h.inbound h.outbound h.expected.1 h.arrivals h.truncated h.invalid
  case h_3 index =>
    obtain rfl := Option.some.inj hload
    split_ifs
    · apply h.moves (moves_throw _ _)
    · apply h.moves (moves_next u _ _ _)
  case h_4 => cases hload

end Client

namespace ClientRun

variable {u : UdpSetup Address} {r r' : ClientRun Address}

end ClientRun

/-! ### Both ends -/

/-- What the anomaly counters of one end say of datagrams of `kinds`, as numbers of 64 bits. -/
structure Exact (warmup : ℕ) (kinds : List DatagramKind)
    (duplicates reordered invalid truncated : UInt64) : Prop where
  total : kinds.length
    = (classes warmup kinds).count .truncated + (classes warmup kinds).count .invalid
      + (classes warmup kinds).count .warmup + (classes warmup kinds).count .duplicate
      + (classes warmup kinds).count .first
  truncated : truncated = UInt64.ofNat ((classes warmup kinds).count .truncated)
  invalid : invalid = UInt64.ofNat ((classes warmup kinds).count .invalid)
  duplicate : duplicates = UInt64.ofNat ((classes warmup kinds).count .duplicate)
  duplicates : (classes warmup kinds).count .duplicate
    = (measured warmup kinds).length - (measured warmup kinds).toFinset.card
  first : (classes warmup kinds).count .first = (measured warmup kinds).toFinset.card
  reordered : reordered = UInt64.ofNat (overtaken (firsts (measured warmup kinds)))

/-- Every datagram has one class. -/
theorem length_classes (classes : List DatagramClass) :
  classes.length = classes.count .truncated + classes.count .invalid + classes.count .warmup
    + classes.count .duplicate + classes.count .first
  := by
  induction classes with
  | nil => rfl
  | cons c classes ih =>
      rw [List.length_cons, ih]
      cases c <;> simp <;> omega

/-- What is recorded and counted of the datagrams is exact. -/
theorem Arrivals.Reports.exact {warmup samples : ℕ} {kinds : List DatagramKind} {a : Arrivals}
    {invalid truncated : UInt64} (h : a.Reports warmup samples (measured warmup kinds))
    (htruncated : truncated = UInt64.ofNat ((classes warmup kinds).count .truncated))
    (hinvalid : invalid = UInt64.ofNat ((classes warmup kinds).count .invalid)) :
  Exact warmup kinds a.duplicates a.reordered invalid truncated
  := by
  obtain ⟨hfirst, hduplicate⟩ := count_classes warmup kinds
  have hlength : (classes warmup kinds).length = kinds.length := by
    rw [classes, List.length_map, List.length_zipIdx]
  constructor
  · rw [← hlength, length_classes]
  · apply htruncated
  · apply hinvalid
  · rw [hduplicate, h.duplicates]
  · rw [hduplicate, length_firsts]
  · rw [hfirst, length_firsts]
  · apply h.reordered

end SocketLatency
