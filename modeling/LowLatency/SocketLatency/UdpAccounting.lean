import LowLatency.SocketLatency.UdpRun
import LowLatency.SocketLatency.Summarizer

/-!
# The accounting of a UDP run

Every response comes from a request that the server has counted, or is about to count unless it
fails. So when the server is joined, every sample taken belongs to a request it has counted, and
the client's accounting of the requests without a sample is consistent.
-/

namespace SocketLatency

/-- The columns that are printed of a result. -/
def RunResult.row (result : RunResult) : Summarize.Row where
  successfulSamples := result.samples.toNat
  attemptedSamples := result.attemptedSamples.toNat
  udpDeadlineMisses := result.udpDeadlineMisses.toNat
  udpRequestsUnobserved := result.udpRequestsUnobserved.toNat
  udpResponseDeadlineMisses := result.udpResponseDeadlineMisses.toNat

variable {Address : Type} {u : UdpSetup Address}

theorem UdpSetup.toNat_timeoutNs (u : UdpSetup Address) :
  u.timeoutNs.toNat = u.options.udpTimeoutMs * 1000000
  := by
  have hle := u.options.udpTimeoutMs_le
  rw [timeoutNs, UInt64.toNat_mul, UInt64.toNat_ofNat']
  change _ % _ * 1000000 % _ = _
  rw [Nat.mod_eq_of_lt (a := u.options.udpTimeoutMs) (by omega)]
  apply Nat.mod_eq_of_lt
  omega

/-! ### The arithmetic of the accounting -/

section Account

variable {c : Client} {server : Server Address}

/-- The samples are at most the requests counted, and these at most the requests. -/
structure Client.Covered (u : UdpSetup Address) (c : Client) (server : Server Address) :
    Prop where
  completed_le : c.latencies.length ≤ server.report.measuredUniqueRequests.toNat
  unique_le : server.report.measuredUniqueRequests.toNat ≤ u.options.samples

/-- A result whose numbers are those of the run, with no subtraction wrapped. -/
structure RunResult.Accounts (u : UdpSetup Address) (c : Client) (server : Server Address)
    (result : RunResult) : Prop where
  samples : result.samples.toNat = c.latencies.length
  attempted : result.attemptedSamples.toNat = u.options.samples
  misses : result.samples.toNat + result.udpDeadlineMisses.toNat = result.attemptedSamples.toNat
  unobserved : server.report.measuredUniqueRequests.toNat + result.udpRequestsUnobserved.toNat
    = result.attemptedSamples.toNat
  split : result.udpRequestsUnobserved.toNat + result.udpResponseDeadlineMisses.toNat
    = result.udpDeadlineMisses.toNat
  samples_pos : 0 < result.samples.toNat

theorem Options.samples_lt (o : Options) : o.samples < 2 ^ 32 := by
  have htotal := o.total_lt
  rw [Options.total] at htotal
  omega

/-- A subtraction of numbers of requests does not wrap. -/
theorem toNat_ofNat_sub {samples : ℕ} (hsamples : samples < 2 ^ 32) {x : UInt64}
    (hx : x.toNat ≤ samples) :
  (UInt64.ofNat samples - x).toNat = samples - x.toNat
  := by
  have hofNat : (UInt64.ofNat samples).toNat = samples := by
    rw [UInt64.toNat_ofNat']
    apply Nat.mod_eq_of_lt
    omega
  rw [UInt64.toNat_sub_of_le, hofNat]
  rw [UInt64.le_iff_toNat_le, hofNat]
  apply hx

/-- The accounting of a covered client is consistent: it has a result, or there is no sample. -/
theorem Client.Covered.account (h : c.Covered u server) :
  (c.latencies = [] ∧ c.account u server = .error .noSample) ∨
    ∃ result, c.account u server = .ok result ∧ result.Accounts u c server
  := by
  have hsamples := u.options.samples_lt
  have hcompleted := h.completed_le
  have hunique := h.unique_le
  have hlength : (UInt64.ofNat c.latencies.length).toNat = c.latencies.length := by
    rw [UInt64.toNat_ofNat']
    apply Nat.mod_eq_of_lt
    omega
  have hattempted : (UInt64.ofNat u.options.samples).toNat = u.options.samples := by
    rw [UInt64.toNat_ofNat']
    apply Nat.mod_eq_of_lt
    omega
  have hunobserved := toNat_ofNat_sub hsamples hunique
  have hmisses := toNat_ofNat_sub hsamples (x := UInt64.ofNat c.latencies.length)
    (by omega)
  have hle : UInt64.ofNat u.options.samples - server.report.measuredUniqueRequests ≤
      UInt64.ofNat u.options.samples - UInt64.ofNat c.latencies.length := by
    rw [UInt64.le_iff_toNat_le]
    omega
  have hsplit := UInt64.toNat_sub_of_le _ _ hle
  rw [Client.account, if_neg (UInt64.not_lt.mpr hle)]
  by_cases hempty : c.latencies = []
  · left
    rw [if_pos hempty]
    use hempty
  · right
    rw [if_neg hempty]
    have hpos := List.length_pos_of_ne_nil hempty
    refine ⟨_, rfl, ?_⟩
    constructor
    · apply hlength
    · apply hattempted
    · simp only
      omega
    · simp only
      omega
    · simp only
      omega
    · simp only
      omega

/-- The summarizer takes the row of a result that accounts for its run. -/
theorem RunResult.Accounts.validateUdpRow {result : RunResult} (h : result.Accounts u c server)
    (lineNumber : ℕ) :
  Summarize.validateUdpRow result.row lineNumber = .ok ()
  := by
  have hmisses := h.misses
  have hsplit := h.split
  have hpos := h.samples_pos
  have hsuccessful : result.row.successfulSamples = result.samples.toNat := rfl
  have hattempted : result.row.attemptedSamples = result.attemptedSamples.toNat := rfl
  have hdeadline : result.row.udpDeadlineMisses = result.udpDeadlineMisses.toNat := rfl
  have hunobserved : result.row.udpRequestsUnobserved = result.udpRequestsUnobserved.toNat := rfl
  have hresponse : result.row.udpResponseDeadlineMisses = result.udpResponseDeadlineMisses.toNat :=
    rfl
  rw [Summarize.validateUdpRow, if_neg (by omega), if_neg (by omega), if_neg (by omega),
    if_neg (by omega)]

end Account

/-! ### The invariant of a run -/

/-- The client has returned what it accounts for, after the server has finished. -/
structure UdpState.Returned (u : UdpSetup Address) (s : UdpState Address) (result : RunResult) :
    Prop where
  pc : s.client.pc = .returned result
  finished : s.server.pc = .finished
  account : s.client.account u s.server = .ok result
  joined : { s.client with pc := .joining }.Inv u s.network

/-- Every datagram sent to the client carries a sequence that the server counts. -/
structure UdpState.Inv (u : UdpSetup Address) (s : UdpState Address) : Prop where
  server : s.server.Inv u
  echoes : ∀ d ∈ s.network, d.destination = u.clientAddress → ∃ observed,
    readSequence d.bytes .udp = .ok observed ∧ s.server.Counts u observed
  client : s.client.Inv u s.network ∨ ∃ result, s.Returned u result

namespace UdpState

variable {s s' : UdpState Address}

theorem Inv.joined (h : s.Inv u) : { s.client with pc := .joining }.Inv u s.network := by
  rcases h.client with hclient | ⟨result, hreturned⟩
  · apply hclient.toJoining
  · apply hreturned.joined

/-- A client that has not returned is as it should be. -/
theorem Inv.running (h : s.Inv u) (hrunning : ∀ result, s.client.pc ≠ .returned result) :
  s.client.Inv u s.network
  := by
  rcases h.client with hclient | ⟨result, hreturned⟩
  · apply hclient
  · cases hrunning result hreturned.pc

/-- When the server has finished, it has counted the request of every sample. -/
theorem Inv.counted (h : s.Inv u) (hfinished : s.server.pc = .finished) :
  ∀ x ∈ s.client.taken,
    Flags.isRaised s.server.arrivals.seen (x.1.toNat - u.options.warmup) = true
  := by
  intro x hx
  obtain ⟨d, hd, hdestination, hread⟩ := h.joined.echoed x hx
  obtain ⟨observed, hobserved, hcounts⟩ := h.echoes d hd hdestination
  rw [hread] at hobserved
  cases hobserved
  rcases hcounts with hwarmup | hseen | hpc | ⟨operation, hpc⟩
  · have hmeasured := (h.joined.measured x hx).1
    omega
  · apply hseen
  · rw [hfinished] at hpc
    cases hpc
  · rw [hfinished] at hpc
    cases hpc

/-- When the server has finished, it has counted at least as many requests as there are
samples. -/
theorem Inv.covered (h : s.Inv u) (hfinished : s.server.pc = .finished) :
  s.client.Covered u s.server
  := by
  constructor
  · have hnodup : (s.client.taken.map fun x => x.1.toNat - u.options.warmup).Nodup := by
      rw [List.Nodup, List.pairwise_map]
      apply h.joined.increasing.imp_of_mem
      intro x y hx _ hlt
      have hmeasured := (h.joined.measured x hx).1
      omega
    have hle := Flags.length_le_count hnodup (by
      intro index hindex
      obtain ⟨x, hx, rfl⟩ := List.mem_map.mp hindex
      apply h.counted hfinished x hx)
    have hlatencies : s.client.taken.map Prod.snd = s.client.latencies := h.joined.latencies
    rw [List.length_map] at hle
    rw [h.server.unique, ← hlatencies, List.length_map]
    apply hle
  · rw [h.server.unique, ← h.server.seen]
    apply List.count_le_length

theorem inv_initial [DecidableEq Address] (u : UdpSetup Address) :
  (udpRun u).initial.Inv u
  := by
  constructor
  · apply Server.inv_initial
  · intro d hd
    cases hd
  · left
    apply Client.inv_initial

/-- The server moves before it has finished, and counts no less. -/
theorem Inv.ofServer (h : s.Inv u) (hrunning : s.server.pc ≠ .finished)
    (hclient : s'.client = s.client) (hnetwork : s'.network = s.network)
    (hserver : s'.server.Inv u)
    (hcounts : ∀ observed, s.server.Counts u observed → s'.server.Counts u observed) :
  s'.Inv u
  := by
  constructor
  · apply hserver
  · intro d hd hdestination
    rw [hnetwork] at hd
    obtain ⟨observed, hread, hobserved⟩ := h.echoes d hd hdestination
    use observed, hread
    apply hcounts observed hobserved
  · rw [hclient, hnetwork]
    rcases h.client with hlive | ⟨result, hreturned⟩
    · left
      apply hlive
    · cases hrunning hreturned.finished

/-- The client moves, and may send to the server. -/
theorem Inv.ofClient (h : s.Inv u) (hserver : s'.server = s.server)
    (hnetwork : ∀ d ∈ s'.network, d ∈ s.network ∨ d.destination = u.serverAddress)
    (hclient : s'.client.Inv u s'.network ∨ ∃ result, s'.Returned u result) :
  s'.Inv u
  := by
  constructor
  · rw [hserver]
    apply h.server
  · intro d hd hdestination
    rw [hserver]
    cases hnetwork d hd with
    | inl hold => apply h.echoes d hold hdestination
    | inr hnew =>
        rw [hnew] at hdestination
        cases u.clientAddress_ne hdestination.symm
  · apply hclient

/-! ### Steps of the server -/

/-- A receiving server moves. -/
theorem Inv.ofServerMove (h : s.Inv u) (hreceiving : s.server.pc.Receiving)
    (hclient : s'.client = s.client) (hnetwork : s'.network = s.network)
    (hserver : s'.server.Inv u) (harrivals : s'.server.arrivals = s.server.arrivals) :
  s'.Inv u
  := by
  apply h.ofServer _ hclient hnetwork hserver
  · intro observed hobserved
    apply hobserved.move harrivals
    · intro hpc
      rw [hpc] at hreceiving
      cases hreceiving
    · intro operation hpc
      rw [hpc] at hreceiving
      cases hreceiving
  · intro hpc
    rw [hpc] at hreceiving
    cases hreceiving

/-- A receiving server moves to where no echo is under way. -/
theorem Inv.ofServerIdle (h : s.Inv u) (hreceiving : s.server.pc.Receiving)
    (hidle : s'.server.pc.Idle) (hclient : s'.client = s.client)
    (hnetwork : s'.network = s.network) (harrivals : s'.server.arrivals = s.server.arrivals)
    (hreport : s'.server.report = s.server.report) :
  s'.Inv u
  := by
  apply h.ofServerMove hreceiving hclient hnetwork _ harrivals
  apply h.server.move harrivals _ hidle
  rw [hreport]

theorem Inv.serverStart (h : s.Inv u) (hs : s.serverStart = some s') : s'.Inv u := by
  cases hpc : s.server.pc with
  | starting =>
      simp only [UdpState.serverStart, hpc, Option.some.injEq] at hs
      subst hs
      apply h.ofServerIdle (by rw [hpc]; trivial) <;> trivial
  | _ => simp [UdpState.serverStart, hpc] at hs

theorem Inv.serverCheck (h : s.Inv u) {place : ℕ} (hs : s.serverCheck place = some s') :
  s'.Inv u
  := by
  cases hpc : s.server.pc with
  | checking =>
      simp only [UdpState.serverCheck, hpc, Option.map_eq_some_iff] at hs
      obtain ⟨cancelled, -, rfl⟩ := hs
      cases cancelled with
      | false => apply h.ofServerIdle (by rw [hpc]; trivial) <;> trivial
      | true => apply h.ofServerIdle (by rw [hpc]; trivial) <;> trivial
  | _ => simp [UdpState.serverCheck, hpc] at hs

theorem Inv.serverReceive [DecidableEq Address] (h : s.Inv u)
    {delivered : Option (Datagram Address)} (hs : s.serverReceive u delivered = some s') :
  s'.Inv u
  := by
  cases hpc : s.server.pc with
  | waiting =>
      have hreceiving : s.server.pc.Receiving := by
        rw [hpc]
        trivial
      cases delivered with
      | none =>
          simp only [UdpState.serverReceive, hpc, Option.some.injEq] at hs
          subst hs
          apply h.ofServerIdle hreceiving <;> trivial
      | some d =>
          simp only [UdpState.serverReceive, hpc, Option.ite_none_right_eq_some,
            Option.some.injEq] at hs
          obtain ⟨-, rfl⟩ := hs
          apply h.ofServerMove hreceiving
          · rfl
          · rfl
          · apply h.server.receive hpc
          · apply Server.arrivals_examine
  | _ => simp [UdpState.serverReceive, hpc] at hs

/-- The echo carries the sequence that is about to be counted. -/
theorem Inv.serverSend (h : s.Inv u) (hs : s.serverSend u = some s') : s'.Inv u := by
  cases hpc : s.server.pc with
  | sending observed peer =>
      simp only [UdpState.serverSend, hpc, Option.some.injEq] at hs
      subst hs
      obtain ⟨hread, htotal⟩ := h.server.sending observed peer hpc
      constructor
      · constructor
        · apply h.server.seen
        · apply h.server.unique
        · intro observed' peer' hpc'
          cases hpc'
        · intro observed' hpc'
          cases hpc'
          apply htotal
      · intro d hd hdestination
        cases List.mem_append.mp hd with
        | inl hd =>
            obtain ⟨observed', hread', hcounts⟩ := h.echoes d hd hdestination
            use observed', hread'
            apply hcounts.move
            · rfl
            · simp [hpc]
            · simp [hpc]
        | inr hd =>
            obtain rfl := List.mem_singleton.mp hd
            use observed, hread
            right; right; left
            rfl
      · rcases h.client with hlive | ⟨result, hreturned⟩
        · left
          apply hlive.mono
          apply List.subset_append_left
        · have hfinished := hreturned.finished
          rw [hpc] at hfinished
          cases hfinished
  | _ => simp [UdpState.serverSend, hpc] at hs

theorem Inv.serverCount (h : s.Inv u) (hs : s.serverCount u = some s') : s'.Inv u := by
  cases hpc : s.server.pc with
  | counting observed =>
      simp only [UdpState.serverCount, hpc, Option.some.injEq] at hs
      subst hs
      apply h.ofServer (by simp [hpc])
      · rfl
      · rfl
      · apply h.server.count hpc
      · intro observed' hobserved'
        apply hobserved'.count h.server hpc
  | _ => simp [UdpState.serverCount, hpc] at hs

theorem Inv.serverFinish (h : s.Inv u) (hs : s.serverFinish = some s') : s'.Inv u := by
  cases hpc : s.server.pc with
  | leaving =>
      simp only [UdpState.serverFinish, hpc, Option.some.injEq] at hs
      subst hs
      apply h.ofServerIdle (by rw [hpc]; trivial) <;> trivial
  | _ => simp [UdpState.serverFinish, hpc] at hs

theorem Inv.serverThrow (h : s.Inv u) {operation : String}
    (hs : s.serverThrow operation = some s') :
  s'.Inv u
  := by
  have hrunning : s.server.pc ≠ .finished := by
    intro hpc
    simp [UdpState.serverThrow, hpc] at hs
  have heq : s' = { s with
      serverState := s.serverState.store (-1)
      server := { s.server with pc := .failed operation } } := by
    cases hpc : s.server.pc <;> simp [UdpState.serverThrow, hpc] at hs <;> exact hs.symm
  subst heq
  apply h.ofServer hrunning
  · rfl
  · rfl
  · apply h.server.move
    · rfl
    · rfl
    · trivial
  · intro observed _
    right; right; right
    use operation

/-! ### Steps of the client -/

/-- The client moves alone. -/
theorem Inv.ofClientMove (h : s.Inv u) (hserver : s'.server = s.server)
    (hnetwork : s'.network = s.network) (hclient : s'.client.Inv u s.network) :
  s'.Inv u
  := by
  apply h.ofClient hserver
  · intro d hd
    left
    rw [hnetwork] at hd
    apply hd
  · left
    rw [hnetwork]
    apply hclient

theorem Inv.clientLoad (h : s.Inv u) {place : ℕ} (hs : s.clientLoad u place = some s') :
  s'.Inv u
  := by
  obtain ⟨state, -, hs⟩ := Option.bind_eq_some_iff.mp hs
  obtain ⟨client, hload, rfl⟩ := Option.map_eq_some_iff.mp hs
  have hrunning : ∀ result, s.client.pc ≠ .returned result := by
    intro result hpc
    simp [Client.load, hpc] at hload
  have hview : { s.client with view := place }.Inv u s.network := by
    apply (h.running hrunning).update <;> rfl
  apply h.ofClientMove
  · rfl
  · rfl
  · apply hview.load hload

theorem Inv.clientSend (h : s.Inv u) {now : UInt64} (hs : s.clientSend u now = some s') :
  s'.Inv u
  := by
  cases hpc : s.client.pc with
  | sending loop index =>
      have hlive := h.running (by simp [hpc])
      cases hwrite : writeHeader s.client.outbound .udp (u.sequence loop index) with
      | error message =>
          simp only [UdpState.clientSend, hpc, hwrite, Option.some.injEq] at hs
          subst hs
          apply h.ofClientMove
          · rfl
          · rfl
          · apply hlive.throw (by simp)
      | ok outbound =>
          simp only [UdpState.clientSend, hpc, hwrite, Option.some.injEq] at hs
          subst hs
          apply h.ofClient
          · rfl
          · intro d hd
            cases List.mem_append.mp hd with
            | inl hd =>
                left
                apply hd
            | inr hd =>
                right
                rw [List.mem_singleton.mp hd]
          · left
            apply Client.Inv.mono _ (List.subset_append_left _ _)
            have hsending := hlive.live
            rw [hpc] at hsending
            apply hlive.move
            · rfl
            · rfl
            · rw [hpc]
              cases loop <;> apply le_rfl
            · cases loop with
              | warmup => trivial
              | measured => apply hsending
  | _ => simp [UdpState.clientSend, hpc] at hs

theorem Inv.clientClock (h : s.Inv u) {now : UInt64} (hs : s.clientClock u now = some s') :
  s'.Inv u
  := by
  cases hpc : s.client.pc with
  | checking loop index sentAt =>
      have hlive := h.running (by simp [hpc])
      simp only [UdpState.clientClock, hpc, Option.some.injEq] at hs
      subst hs
      apply h.ofClientMove
      · rfl
      · rfl
      · split_ifs
        · apply hlive.miss (.inr hpc)
        · have hchecking := hlive.live
          rw [hpc] at hchecking
          apply hlive.move
          · rfl
          · rfl
          · rw [hpc]
            cases loop <;> apply le_rfl
          · cases loop with
            | warmup => trivial
            | measured => apply hchecking
  | _ => simp [UdpState.clientClock, hpc] at hs

theorem Inv.clientReceive [DecidableEq Address] (h : s.Inv u)
    {delivered : Option (Datagram Address)} {receivedAt : UInt64}
    (hs : s.clientReceive u delivered receivedAt = some s') :
  s'.Inv u
  := by
  cases hpc : s.client.pc with
  | waiting loop index sentAt =>
      have hlive := h.running (by simp [hpc])
      cases delivered with
      | none =>
          have hwaiting := hlive.live
          rw [hpc] at hwaiting
          simp only [UdpState.clientReceive, hpc, Option.some.injEq] at hs
          subst hs
          apply h.ofClientMove
          · rfl
          · rfl
          · apply hlive.move
            · rfl
            · rfl
            · rw [hpc]
              cases loop <;> apply le_rfl
            · cases loop with
              | warmup => trivial
              | measured => apply hwaiting
      | some d =>
          simp only [UdpState.clientReceive, hpc, Option.ite_none_right_eq_some,
            Option.some.injEq] at hs
          obtain ⟨⟨hd, hdestination, -⟩, rfl⟩ := hs
          apply h.ofClientMove
          · rfl
          · rfl
          · apply hlive.receive hpc receivedAt hd hdestination
  | _ => simp [UdpState.clientReceive, hpc] at hs

theorem Inv.clientTimeout (h : s.Inv u) (hs : s.clientTimeout u = some s') : s'.Inv u := by
  cases hpc : s.client.pc with
  | waiting loop index sentAt =>
      have hlive := h.running (by simp [hpc])
      cases hwait : u.options.profile.receiveWait with
      | kernel =>
          simp only [UdpState.clientTimeout, hpc, hwait, Option.some.injEq] at hs
          subst hs
          apply h.ofClientMove
          · rfl
          · rfl
          · apply hlive.miss (.inl hpc)
      | spin => simp [UdpState.clientTimeout, hpc, hwait] at hs
  | _ => simp [UdpState.clientTimeout, hpc] at hs

theorem Inv.clientCancel (h : s.Inv u) (hs : s.clientCancel = some s') : s'.Inv u := by
  cases hpc : s.client.pc with
  | cancelling =>
      have hlive := h.running (by simp [hpc])
      simp only [UdpState.clientCancel, hpc, Option.some.injEq] at hs
      subst hs
      apply h.ofClientMove
      · rfl
      · rfl
      · apply hlive.toJoining
  | unwinding failure =>
      have hlive := h.running (by simp [hpc])
      have hfailure := hlive.live
      rw [hpc] at hfailure
      simp only [UdpState.clientCancel, hpc, Option.some.injEq] at hs
      subst hs
      apply h.ofClientMove
      · rfl
      · rfl
      · apply hlive.move
        · rfl
        · rfl
        · apply Client.attempt_le hlive
        · apply hfailure
  | _ => simp [UdpState.clientCancel, hpc] at hs

/-- The accounting of a joined client has a result, or there is no sample. -/
theorem Inv.clientJoin (h : s.Inv u) (hs : s.clientJoin u = some s') : s'.Inv u := by
  have hrunning : ∀ result, s.client.pc ≠ .returned result := by
    intro result hpc
    simp [UdpState.clientJoin, hpc] at hs
  have hlive := h.running hrunning
  have hrejoined : ∀ failure, s.client.pc = .rejoining failure →
      ({ s with client := { s.client with pc := .thrown failure } } : UdpState Address).Inv u := by
    intro failure hpc
    have hfailure := hlive.live
    rw [hpc] at hfailure
    apply h.ofClientMove
    · rfl
    · rfl
    · apply hlive.move
      · rfl
      · rfl
      · apply Client.attempt_le hlive
      · apply hfailure
  have hthrow : ∀ failure, failure ≠ .inconsistentAccounting →
      ({ s with client := s.client.throw failure } : UdpState Address).Inv u := by
    intro failure hfailure
    apply h.ofClientMove
    · rfl
    · rfl
    · apply hlive.throw hfailure
  unfold UdpState.clientJoin at hs
  split at hs
  · cases hs
    apply hthrow _ (by simp)
  · cases hs
    apply hthrow _ (by simp)
  · next hpc hfinished =>
      rcases (h.covered hfinished).account with ⟨-, haccount⟩ | ⟨result, haccount, -⟩
      · simp only [haccount, Option.some.injEq] at hs
        subst hs
        apply hthrow _ (by simp)
      · simp only [haccount, Option.some.injEq] at hs
        subst hs
        apply h.ofClient
        · rfl
        · intro d hd
          left
          apply hd
        · right
          use result
          constructor
          · rfl
          · apply hfinished
          · apply haccount
          · apply hlive.toJoining
  · next hpc _ =>
      cases hs
      apply hrejoined _ hpc
  · next hpc _ =>
      cases hs
      apply hrejoined _ hpc
  · cases hs

theorem Inv.clientThrow (h : s.Inv u) {operation : String}
    (hs : s.clientThrow operation = some s') :
  s'.Inv u
  := by
  have hrunning : ∀ result, s.client.pc ≠ .returned result := by
    intro result hpc
    simp [UdpState.clientThrow, hpc] at hs
  have heq : s' = { s with client := s.client.throw (.system operation) } := by
    cases hpc : s.client.pc <;> simp [UdpState.clientThrow, hpc] at hs <;> exact hs.symm
  subst heq
  apply h.ofClientMove
  · rfl
  · rfl
  · apply (h.running hrunning).throw (by simp)

/-! ### Every run -/

theorem Inv.step [DecidableEq Address] {action : UdpAction Address} (h : s.Inv u)
    (hs : s.step u action = some s') :
  s'.Inv u
  := by
  cases action with
  | serverStart => apply h.serverStart hs
  | serverCheck place => apply h.serverCheck hs
  | serverReceive delivered => apply h.serverReceive hs
  | serverSend => apply h.serverSend hs
  | serverCount => apply h.serverCount hs
  | serverFinish => apply h.serverFinish hs
  | serverThrow operation => apply h.serverThrow hs
  | clientLoad place => apply h.clientLoad hs
  | clientSend now => apply h.clientSend hs
  | clientClock now => apply h.clientClock hs
  | clientReceive delivered receivedAt => apply h.clientReceive hs
  | clientTimeout => apply h.clientTimeout hs
  | clientCancel => apply h.clientCancel hs
  | clientJoin => apply h.clientJoin hs
  | clientThrow operation => apply h.clientThrow hs

theorem inv_of_reachable [DecidableEq Address] (h : (udpRun u).Reachable s) : s.Inv u :=
  h.invariant (inv_initial u) fun _ _ _ hinv hs => hinv.step hs

/-- In every run each sample belongs to a sequence of its own and is within the timeout, its
request is counted by the time the server can be joined, the accounting is never inconsistent,
and the row of every result passes the checks of the summarizer that account for its requests. -/
theorem accounting_consistent [DecidableEq Address] (u : UdpSetup Address) {s : UdpState Address}
    (h : (udpRun u).Reachable s) :
  s.client.taken.map Prod.snd = s.client.latencies ∧
  (s.client.taken.map Prod.fst).Nodup ∧
  (∀ x ∈ s.client.taken, 0 < x.2.toNat ∧ x.2.toNat ≤ u.options.udpTimeoutMs * 1000000) ∧
  (s.server.pc = .finished →
    (∀ x ∈ s.client.taken, u.options.warmup ≤ x.1.toNat ∧
      Flags.isRaised s.server.arrivals.seen (x.1.toNat - u.options.warmup) = true) ∧
    s.server.report.measuredUniqueRequests.toNat = s.server.arrivals.seen.count true ∧
    s.client.latencies.length ≤ s.server.report.measuredUniqueRequests.toNat ∧
    s.server.report.measuredUniqueRequests.toNat ≤ u.options.samples) ∧
  (s.client.pc ≠ .unwinding .inconsistentAccounting ∧
    s.client.pc ≠ .rejoining .inconsistentAccounting ∧
    s.client.pc ≠ .thrown .inconsistentAccounting) ∧
  (∀ result, s.client.pc = .returned result →
    s.server.pc = .finished ∧ result.Accounts u s.client s.server ∧
      ∀ lineNumber, Summarize.validateUdpRow result.row lineNumber = .ok ())
  := by
  have hinv := inv_of_reachable h
  have hjoined := hinv.joined
  use hjoined.latencies
  constructor
  · rw [List.Nodup, List.pairwise_map]
    apply hjoined.increasing.imp
    intro x y hlt heq
    rw [heq] at hlt
    apply lt_irrefl _ hlt
  · constructor
    · intro x hx
      obtain ⟨hpos, hle⟩ := hjoined.inTime x hx
      rw [UInt64.le_iff_toNat_le, u.toNat_timeoutNs] at hle
      use UInt64.lt_iff_toNat_lt.mp hpos
    · constructor
      · intro hfinished
        have hcovered := hinv.covered hfinished
        constructor
        · intro x hx
          use (hjoined.measured x hx).1
          apply hinv.counted hfinished x hx
        · use hinv.server.unique, hcovered.completed_le
          apply hcovered.unique_le
      · constructor
        · rcases hinv.client with hclient | ⟨result, hreturned⟩
          · have hlive := hclient.live
            refine ⟨?_, ?_, ?_⟩ <;> intro hpc <;> rw [hpc] at hlive <;> apply hlive rfl
          · simp [hreturned.pc]
        · intro result hpc
          rcases hinv.client with hclient | ⟨result', hreturned⟩
          · have hlive := hclient.live
            rw [hpc] at hlive
            cases hlive
          · rw [hreturned.pc] at hpc
            cases hpc
            use hreturned.finished
            rcases (hinv.covered hreturned.finished).account with
              ⟨-, haccount⟩ | ⟨result', haccount, haccounts⟩
            · rw [hreturned.account] at haccount
              cases haccount
            · rw [hreturned.account] at haccount
              cases haccount
              use haccounts
              apply haccounts.validateUdpRow

/-- The bounds on the options of `twoSamples`. -/
theorem sequences_twoSamples : 1 ≤ maximumSequence ∧ 2 ≤ maximumSequence - 1 := by
  decide

theorem udpTimeoutMs_twoSamples : 1 ≤ 60000 := by
  decide

/-- One warm-up request and two measured ones, with a timeout of a millisecond. -/
def twoSamples : UdpSetup Bool where
  options :=
    { warmup := 1
      samples := 2
      udpTimeoutMs := 1
      profile := { receiveWait := .kernel, tcpNodelay := false, udpConnected := false }
      warmup_pos := Nat.one_pos
      samples_pos := Nat.two_pos
      udpTimeoutMs_pos := Nat.one_pos
      sequences := sequences_twoSamples
      udpTimeoutMs_le := udpTimeoutMs_twoSamples }
  payloadBytes := 8
  clientAddress := false
  serverAddress := true
  payloadBytes_mem := List.mem_cons_self
  clientAddress_ne := Bool.false_ne_true

/-- A datagram of `twoSamples`. -/
def twoSamplesDatagram (source : Bool) (sequence : UInt8) : Datagram Bool where
  source := source
  destination := !source
  bytes := [0x4c, 0x53, 1, 2, 0, 0, 0, sequence]

/-- The echo of the first measured request arrives twice, and that of the second too late. -/
def lateEcho : List (UdpAction Bool) :=
  [.serverStart, .clientLoad 1, .clientLoad 1,
    .clientSend 100, .serverCheck 0, .serverReceive (some (twoSamplesDatagram false 0)),
    .serverSend, .serverCount,
    .clientClock 200, .clientReceive (some (twoSamplesDatagram true 0)) 300,
    .clientSend 400, .serverCheck 0, .serverReceive (some (twoSamplesDatagram false 1)),
    .serverSend, .clientClock 500, .clientReceive (some (twoSamplesDatagram true 1)) 600,
    .serverCount,
    .clientSend 700, .clientClock 800, .clientReceive (some (twoSamplesDatagram true 1)) 900,
    .serverCheck 0, .serverReceive (some (twoSamplesDatagram false 2)), .serverSend, .serverCount,
    .clientClock 1000, .clientTimeout, .clientLoad 1, .clientCancel,
    .serverCheck 1, .serverFinish, .clientJoin]

theorem accounting_consistent_lateEcho :
  ∃ s result, (udpRun twoSamples).run lateEcho (udpRun twoSamples).initial = some s ∧
    s.client.pc = .returned result ∧ s.client.latencies = [200] ∧
    result.udpDeadlineMisses = 1 ∧ result.udpRequestsUnobserved = 0 ∧
    ∀ lineNumber, Summarize.validateUdpRow result.row lineNumber = .ok ()
  := by
  refine ⟨_, _, rfl, rfl, rfl, rfl, rfl, ?_⟩
  apply ((accounting_consistent twoSamples ⟨lateEcho, rfl⟩).2.2.2.2.2 _ rfl).2.2

end UdpState

end SocketLatency
