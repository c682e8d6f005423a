import LowLatency.SocketLatency.TcpRank

/-!
# The progress of a TCP run

No schedule of the two threads and no behaviour of the kernel makes a run go on forever, except
by idle steps. At no time do the two ends wait for each other: as long as the client has not
ended, some step is busy. A run in which nothing has failed yet can always be completed.
-/

namespace SocketLatency

open Sockets (Turn)

variable {u : TcpSetup}

/-! ### The state of the server -/

/-- The server has announced neither that it has started nor that it has failed. -/
def TcpServerPc.Silent : TcpServerPc → Prop
  | .starting | .failing _ => True
  | _ => False

/-- The server has announced that it has failed. -/
def TcpServerPc.Failed : TcpServerPc → Prop
  | .failed _ => True
  | _ => False

/-- What `server_state` tells of the server, and what the client has read of it. -/
structure TcpState.Flag (s : TcpState) : Prop where
  view_le : s.client.view ≤ s.serverState.last
  silent : s.serverState.current = 0 → s.server.pc.Silent
  negative : ∀ k ≤ s.serverState.last, s.serverState.value k < 0 → s.server.pc.Failed
  startFailed : s.client.pc = .startFailed → s.server.pc.Failed

/-- The client is past the start of the server, of which it has last read the value at `view`. -/
structure TcpClient.Started (view : ℕ) (c : TcpClient) : Prop where
  view : c.view = view
  pc : c.pc ≠ .startFailed

namespace TcpClient

variable {c : TcpClient} {loop : Loop} {index view : ℕ} {started now : UInt64}

theorem started_throw (h : c.view = view) (failure : TcpFailure) :
  (c.throw failure).Started view
  := by
  use h
  intro hpc
  cases hpc

theorem started_next (h : c.view = view) : (c.next u loop index).Started view := by
  cases loop
  all_goals
    rw [next]
    split_ifs
  all_goals
    use h
    intro hpc
    cases hpc

theorem started_settleReceive (h : c.view = view) (t : ReceiveTurn) :
  (c.settleReceive loop index started t).Started view
  := by
  rcases t with r | ⟨r, failure | ⟨⟩⟩
  all_goals
    use h
    intro hpc
    cases hpc

theorem started_settleSend (h : c.view = view) (t : SendTurn) :
  (c.settleSend loop index started t).Started view
  := by
  rcases t with offset | ⟨offset, failure | ⟨⟩⟩
  · use h
    intro hpc
    cases hpc
  · apply started_throw h
  · apply started_settleReceive h

theorem started_examine (h : c.view = view) {finished : UInt64}
    (houtbound : c.outbound = u.message (u.place loop index))
    (hinbound : c.inbound = u.message (u.place loop index)) :
  (c.examine u index started finished loop).Started view
  := by
  cases loop with
  | warmup =>
      rw [examine, examineWarmup_eq houtbound hinbound]
      apply started_next h
  | measured =>
      rw [examine]
      by_cases hlt : started < finished
      · rw [examineMeasured_eq hlt houtbound hinbound]
        apply started_next
        apply h
      · rw [examineMeasured, if_pos (UInt64.not_lt.mp hlt)]
        apply started_throw h

end TcpClient

namespace TcpState

variable {s s' : TcpState}

theorem flag_initial (u : TcpSetup) : (tcpRun u).initial.Flag := by
  constructor
  · apply le_rfl
  · intro _
    trivial
  · intro k _ hlt
    cases hlt
  · intro hpc
    cases hpc

/-- The server moves on without an announcement. -/
theorem Flag.ofServer (h : s.Flag) (hstate : s'.serverState = s.serverState)
    (hclient : s'.client = s.client) (hfailed : ¬s.server.pc.Failed)
    (hsilent : s.server.pc.Silent → s'.server.pc.Silent) :
  s'.Flag
  := by
  constructor
  · rw [hstate, hclient]
    apply h.view_le
  · rw [hstate]
    intro hzero
    apply hsilent (h.silent hzero)
  · rw [hstate]
    intro k hk hlt
    cases hfailed (h.negative k hk hlt)
  · rw [hclient]
    intro hpc
    cases hfailed (h.startFailed hpc)

/-- The client moves on without a look at the announcements. -/
theorem Flag.ofClient (h : s.Flag) (hstate : s'.serverState = s.serverState)
    (hserver : s'.server = s.server) (hclient : s'.client.Started s.client.view) :
  s'.Flag
  := by
  constructor
  · rw [hstate, hclient.view]
    apply h.view_le
  · rw [hstate, hserver]
    apply h.silent
  · rw [hstate, hserver]
    apply h.negative
  · intro hpc
    cases hclient.pc hpc

/-- The server makes an announcement. -/
theorem Flag.announce (h : s.Flag) {server : TcpServer} {state : ℤ} (hstate : state ≠ 0)
    (hfailed : ¬s.server.pc.Failed) (hnegative : state < 0 → server.pc.Failed) :
  { s with serverState := s.serverState.store state, server := server }.Flag
  := by
  constructor
  · simp only [Location.last_store]
    have hle := h.view_le
    omega
  · simp only [Location.current_store]
    intro hzero
    cases hstate hzero
  · intro k hk hlt
    simp only [Location.last_store] at hk
    rcases Nat.lt_or_ge s.serverState.last k with hlast | hlast
    · obtain rfl : k = s.serverState.last + 1 := by omega
      simp only [Location.value_store_last] at hlt
      apply hnegative hlt
    · simp only [Location.value_store_of_le _ _ hlast] at hlt
      cases hfailed (h.negative k hlast hlt)
  · intro hpc
    cases hfailed (h.startFailed hpc)

theorem Flag.serverStart (h : s.Flag) (hs : s.serverStart u = some s') : s'.Flag := by
  cases hpc : s.server.pc with
  | starting =>
      simp only [TcpState.serverStart, hpc, Option.some.injEq] at hs
      subst hs
      apply h.announce
      · decide
      · rw [hpc]
        apply not_false
      · intro hlt
        cases hlt
  | _ => simp [TcpState.serverStart, hpc] at hs

theorem Flag.serverFail (h : s.Flag) (hs : s.serverFail = some s') : s'.Flag := by
  cases hpc : s.server.pc with
  | failing failure =>
      simp only [TcpState.serverFail, hpc, Option.some.injEq] at hs
      subst hs
      apply h.announce
      · decide
      · rw [hpc]
        apply not_false
      · intro _
        trivial
  | _ => simp [TcpState.serverFail, hpc] at hs

/-- The steps of the server without an announcement. -/
theorem quiet_server {action : TcpAction} (hs : s.step u action = some s')
    (haction : match action with
      | .serverReceive _ _ | .serverSend _ | .serverCount | .serverFinish | .serverThrow _ => True
      | _ => False) :
  s'.serverState = s.serverState ∧ s'.client = s.client ∧ ¬s.server.pc.Failed
    ∧ (s.server.pc.Silent → s'.server.pc.Silent)
  := by
  cases action with
  | serverReceive answer now =>
      cases hpc : s.server.pc with
      | receiving index r =>
          simp only [TcpState.step, TcpState.serverReceive, hpc, Option.map_eq_some_iff] at hs
          obtain ⟨⟨outcome, requests⟩, -, rfl⟩ := hs
          use rfl, rfl, not_false
          apply False.elim
      | _ => simp [TcpState.step, TcpState.serverReceive, hpc] at hs
  | serverSend outcome =>
      cases hpc : s.server.pc with
      | sending index offset =>
          simp only [TcpState.step, TcpState.serverSend, hpc, Option.map_eq_some_iff] at hs
          obtain ⟨responses, -, rfl⟩ := hs
          use rfl, rfl, not_false
          apply False.elim
      | _ => simp [TcpState.step, TcpState.serverSend, hpc] at hs
  | serverCount =>
      cases hpc : s.server.pc with
      | counting index =>
          simp only [TcpState.step, TcpState.serverCount, hpc, Option.some.injEq] at hs
          subst hs
          use rfl, rfl, not_false
          apply False.elim
      | _ => simp [TcpState.step, TcpState.serverCount, hpc] at hs
  | serverFinish =>
      cases hpc : s.server.pc with
      | leaving =>
          simp only [TcpState.step, TcpState.serverFinish, hpc, Option.some.injEq] at hs
          subst hs
          use rfl, rfl, not_false
          apply False.elim
      | _ => simp [TcpState.step, TcpState.serverFinish, hpc] at hs
  | serverThrow operation =>
      have heq : s' = { s with server := { s.server with pc := .failing (.system operation) } }
          ∧ ¬s.server.pc.Failed := by
        cases hpc : s.server.pc <;> simp [TcpState.step, TcpState.serverThrow, hpc] at hs <;>
          exact ⟨hs.symm, not_false⟩
      obtain ⟨rfl, hfailed⟩ := heq
      use rfl, rfl, hfailed
      intro _
      trivial
  | _ => cases haction

theorem Flag.clientLoad (h : s.Flag) (hinv : s.Inv u) {place : ℕ}
    (hs : s.clientLoad u place = some s') :
  s'.Flag
  := by
  obtain ⟨sent, served, echoed, received, hat⟩ := hinv
  simp only [TcpState.clientLoad, Option.bind_eq_some_iff, Option.map_eq_some_iff] at hs
  obtain ⟨state, hstate, client, hload, rfl⟩ := hs
  obtain ⟨-, hplace, hvalue⟩ := Location.load_eq_some_iff.mp hstate
  have hclient : client.view = place
      ∧ (client.pc = .startFailed → s.server.pc.Failed) := by
    cases hpc : s.client.pc with
    | starting =>
        simp only [TcpClient.load, hpc, Option.some.injEq] at hload
        subst hload
        use rfl
        simp only
        split_ifs
        · intro h
          cases h
        · intro h
          cases h
    | started =>
        simp only [TcpClient.load, hpc, Option.some.injEq] at hload
        subst hload
        have hlive := hat.live (by simp [hpc])
        simp only [TcpClient.At, hpc] at hlive
        split_ifs with hlt
        · use rfl
          intro _
          apply h.negative place hplace
          rw [hvalue]
          apply hlt
        · have hstarted : ({ s.client with view := place }.begin u).Started place := by
            rw [TcpClient.begin_eq]
            · apply TcpClient.started_next
              rfl
            · rw [hlive.1]
          simp only [hpc] at hstarted
          use hstarted.view
          intro hpc'
          cases hstarted.pc hpc'
    | _ => simp [TcpClient.load, hpc] at hload
  constructor
  · simp only [hclient.1]
    apply hplace
  · apply h.silent
  · apply h.negative
  · apply hclient.2

/-- The other steps of the client. -/
theorem started_client {action : TcpAction} (hinv : s.Inv u) (hs : s.step u action = some s')
    (haction : match action with
      | .clientWrite _ | .clientSend _ | .clientReceive _ _ | .clientExamine _ | .clientJoin
      | .clientShutdown | .clientThrow _ => True
      | _ => False) :
  s'.serverState = s.serverState ∧ s'.server = s.server ∧ s'.client.Started s.client.view
  := by
  obtain ⟨sent, served, echoed, received, hat⟩ := hinv
  cases action with
  | clientWrite now =>
      cases hpc : s.client.pc with
      | writing loop index =>
          simp only [TcpState.step, TcpState.clientWrite, hpc, Option.some.injEq] at hs
          subst hs
          have hclient := hat.live (by simp [hpc])
          simp only [TcpClient.At, hpc] at hclient
          use rfl, rfl
          simp only
          rw [TcpClient.write_eq hclient.2.1]
          apply TcpClient.started_settleSend
          rfl
      | _ => simp [TcpState.step, TcpState.clientWrite, hpc] at hs
  | clientSend outcome =>
      cases hpc : s.client.pc with
      | sending loop index started offset =>
          simp only [TcpState.step, TcpState.clientSend, hpc, Option.map_eq_some_iff] at hs
          obtain ⟨requests, -, rfl⟩ := hs
          use rfl, rfl
          apply TcpClient.started_settleSend
          rfl
      | _ => simp [TcpState.step, TcpState.clientSend, hpc] at hs
  | clientReceive answer now =>
      cases hpc : s.client.pc with
      | receiving loop index started r =>
          simp only [TcpState.step, TcpState.clientReceive, hpc, Option.map_eq_some_iff] at hs
          obtain ⟨⟨outcome, responses⟩, -, rfl⟩ := hs
          use rfl, rfl
          apply TcpClient.started_settleReceive
          rfl
      | _ => simp [TcpState.step, TcpState.clientReceive, hpc] at hs
  | clientExamine now =>
      cases hpc : s.client.pc with
      | exchanged loop index started =>
          simp only [TcpState.step, TcpState.clientExamine, hpc, Option.some.injEq] at hs
          subst hs
          have hclient := hat.live (by simp [hpc])
          simp only [TcpClient.At, hpc] at hclient
          use rfl, rfl
          apply TcpClient.started_examine rfl hclient.2.2.1 hclient.2.2.2.1
      | _ => simp [TcpState.step, TcpState.clientExamine, hpc] at hs
  | clientJoin =>
      have hjoined : s'.serverState = s.serverState ∧ s'.server = s.server
          ∧ s'.client.view = s.client.view ∧ s'.client.pc ≠ .startFailed := by
        cases hpc : s.client.pc with
        | startFailed | joining | rejoining =>
            simp only [TcpState.step, TcpState.clientJoin, hpc] at hs
            split at hs <;> try split at hs
            all_goals cases hs <;> simp
        | _ => simp [TcpState.step, TcpState.clientJoin, hpc] at hs
      use hjoined.1, hjoined.2.1, hjoined.2.2.1
      apply hjoined.2.2.2
  | clientShutdown =>
      cases hpc : s.client.pc with
      | unwinding failure =>
          simp only [TcpState.step, TcpState.clientShutdown, hpc, Option.some.injEq] at hs
          subst hs
          use rfl, rfl, rfl
          intro h
          cases h
      | _ => simp [TcpState.step, TcpState.clientShutdown, hpc] at hs
  | clientThrow operation =>
      have heq : s' = { s with client := s.client.throw (.system operation) } := by
        cases hpc : s.client.pc <;> simp [TcpState.step, TcpState.clientThrow, hpc] at hs <;>
          exact hs.symm
      subst heq
      use rfl, rfl
      apply TcpClient.started_throw rfl
  | _ => cases haction

theorem Flag.step {action : TcpAction} (h : s.Flag) (hinv : s.Inv u)
    (hs : s.step u action = some s') :
  s'.Flag
  := by
  cases action with
  | serverStart => apply h.serverStart hs
  | serverFail => apply h.serverFail hs
  | clientLoad place => apply h.clientLoad hinv hs
  | serverReceive | serverSend | serverCount | serverFinish | serverThrow =>
      obtain ⟨hstate, hclient, hfailed, hsilent⟩ := quiet_server hs trivial
      apply h.ofServer hstate hclient hfailed hsilent
  | clientWrite | clientSend | clientReceive | clientExamine | clientJoin | clientShutdown
  | clientThrow =>
      obtain ⟨hstate, hserver, hclient⟩ := started_client hinv hs trivial
      apply h.ofClient hstate hserver hclient

end TcpState

/-! ### There is always a busy step -/

/-- Nothing is thrown, and no call of the kernel fails. -/
def TcpAction.Cooperative : TcpAction → Prop
  | .serverThrow _ | .clientThrow _ => False
  | .serverReceive (.failed _) _ | .clientReceive (.failed _) _ => False
  | .serverSend outcome | .clientSend outcome =>
      match outcome with
      | .sent count => 0 < count
      | .failed _ => False
  | _ => True

/-- The largest reading of a clock. -/
def lastReading : UInt64 := 18446744073709551615

/-- The server has thrown nothing. -/
def TcpServerPc.Healthy : TcpServerPc → Prop
  | .failing _ | .failed _ => False
  | _ => True

/-- The client has thrown nothing, and the clock can go on during an exchange. -/
def TcpClientPc.Healthy : TcpClientPc → Prop
  | .startFailed | .unwinding _ | .rejoining _ | .thrown _ => False
  | .sending _ _ sentAt _ | .receiving _ _ sentAt _ | .exchanged _ _ sentAt =>
      sentAt < lastReading
  | _ => True

/-- Nothing has failed, and the clock can go on during an exchange. -/
structure TcpState.Healthy (s : TcpState) : Prop where
  server : s.server.pc.Healthy
  client : s.client.pc.Healthy

/-- The client has returned, or has thrown its exception after the server was joined. -/
def TcpState.Ended (s : TcpState) : Prop :=
  (∃ result, s.client.pc = .returned result) ∨ ∃ failure, s.client.pc = .thrown failure

theorem TcpServer.healthy_head (s : TcpServer) (index : ℕ) (r : ReceiveAll) :
  (s.settleReceive index r.head).pc.Healthy
  := by
  rcases ReceiveAll.head_cases r with ⟨hhead, -⟩ | ⟨hhead, -⟩
  all_goals
    rw [hhead]
    trivial

theorem TcpServer.healthy_next (s : TcpServer) (index : ℕ) : (s.next u index).pc.Healthy := by
  rw [next]
  split_ifs
  · apply healthy_head
  · trivial

theorem TcpServer.healthy_sendHead (s : TcpServer) (index : ℕ) (bytes : List Sockets.Byte)
    (offset : ℕ) :
  (s.settleSend index (SendAll.head bytes offset)).pc.Healthy
  := by
  rw [SendAll.head]
  split_ifs
  all_goals trivial

theorem TcpClient.healthy_head (c : TcpClient) (loop : Loop) (index : ℕ) {started : UInt64}
    (hstarted : started < lastReading) (r : ReceiveAll) :
  (c.settleReceive loop index started r.head).pc.Healthy
  := by
  rcases ReceiveAll.head_cases r with ⟨hhead, -⟩ | ⟨hhead, -⟩
  all_goals
    rw [hhead]
    apply hstarted

theorem TcpClient.healthy_sendHead (c : TcpClient) (loop : Loop) (index : ℕ) {started : UInt64}
    (hstarted : started < lastReading) (bytes : List Sockets.Byte) (offset : ℕ) :
  (c.settleSend loop index started (SendAll.head bytes offset)).pc.Healthy
  := by
  rw [SendAll.head]
  split_ifs
  · apply hstarted
  · apply healthy_head c loop index hstarted

theorem TcpClient.healthy_next (c : TcpClient) (loop : Loop) (index : ℕ) :
  (c.next u loop index).pc.Healthy
  := by
  cases loop
  all_goals
    rw [next]
    split_ifs
  all_goals trivial

/-- What is received passes the tests when the clock has gone on. -/
theorem TcpClient.healthy_examine {c : TcpClient} {loop : Loop} {index : ℕ}
    {started finished : UInt64} (hlt : started < finished)
    (houtbound : c.outbound = u.message (u.place loop index))
    (hinbound : c.inbound = u.message (u.place loop index)) :
  (c.examine u index started finished loop).pc.Healthy
  := by
  cases loop with
  | warmup =>
      rw [examine, examineWarmup_eq houtbound hinbound]
      apply healthy_next
  | measured =>
      rw [examine, examineMeasured_eq hlt houtbound hinbound]
      apply healthy_next

namespace TcpState

variable {s : TcpState} {sent served echoed received : ℕ}

/-- Some step is busy, and nothing fails by it that had not failed. -/
def Advances (u : TcpSetup) (s : TcpState) : Prop :=
  ∃ action : TcpAction, action.Cooperative ∧ ¬s.Idle u action ∧
    ∃ s', s.step u action = some s' ∧ (s.Healthy → s'.Healthy)

/-- The server can go on, or the kernel has something for it. -/
def ServerReady (s : TcpState) : Prop :=
  match s.server.pc with
  | .receiving _ _ => s.requests ≠ [] ∨ s.client.pc.closed = true
  | .finished | .failed _ => False
  | _ => True

/-- A `recv` of one byte. -/
theorem recv_one {queue : List Sockets.Byte} {closed : Bool} {requested : ℕ} (hne : queue ≠ [])
    (hrequested : 0 < requested) :
  Stream.recv queue closed requested (.deliver 1)
    = some (.received (queue.take 1), queue.drop 1)
  := by
  have hlength := List.length_pos_iff.mpr hne
  rw [Stream.recv, if_pos]
  omega

/-- One byte fills in one more. -/
theorem turn_one {queue : List Sockets.Byte} {strategy : WaitStrategy}
    {spinDeadlineNs now : UInt64} {r : ReceiveAll} (hne : queue ≠ []) :
  r.turn strategy spinDeadlineNs { outcome := .received (queue.take 1), now := now }
    = (r.fill (queue.take 1)).head
  := by
  have hlength := List.length_pos_iff.mpr hne
  rw [ReceiveAll.turn]
  simp only
  rw [if_pos]
  rw [List.length_take]
  omega

theorem At.server_advances (h : s.At u sent served echoed received) (hready : s.ServerReady) :
  s.Advances u
  := by
  have hserver := h.server
  cases hpc : s.server.pc with
  | starting =>
      use .serverStart, trivial, not_false
      simp only [TcpState.step, TcpState.serverStart, hpc]
      refine ⟨_, rfl, ?_⟩
      intro hhealthy
      constructor
      · apply TcpServer.healthy_next
      · apply hhealthy.client
  | receiving index r =>
      simp only [TcpServer.At, hpc] at hserver
      simp only [ServerReady, hpc] at hready
      have hoffset := hserver.2.2.1.again_lt r rfl
      by_cases hne : s.requests = []
      · have hclosed : s.client.pc.closed = true := by
          rcases hready with hready | hready
          · cases hready hne
          · apply hready
        use .serverReceive .endOfStream 0, trivial, not_false
        simp only [TcpState.step, TcpState.serverReceive, hpc]
        rw [Stream.recv, if_pos ⟨hclosed, hne⟩, Option.map_some]
        refine ⟨_, rfl, ?_⟩
        intro hhealthy
        have hclient := hhealthy.client
        cases hclientPc : s.client.pc with
        | returned result =>
            rcases h.client with hlive | ⟨result', hreturned, -⟩
            · simp only [TcpClient.At, hclientPc] at hlive
            · have hfinished := hreturned.finished
              rw [hpc] at hfinished
              cases hfinished
        | _ => simp [TcpClientPc.closed, TcpClientPc.Healthy, hclientPc] at hclosed hclient
      · use .serverReceive (.deliver 1) 0, trivial, not_false
        simp only [TcpState.step, TcpState.serverReceive, hpc]
        rw [recv_one hne (by omega), Option.map_some]
        refine ⟨_, rfl, ?_⟩
        intro hhealthy
        constructor
        · simp only
          rw [turn_one hne]
          apply TcpServer.healthy_head
        · apply hhealthy.client
  | sending index offset =>
      simp only [TcpServer.At, hpc] at hserver
      have hlength := u.length_message index
      have hsend : Stream.send s.responses (s.server.message.drop offset) (.sent 1)
          = some (s.responses ++ (s.server.message.drop offset).take 1) := by
        rw [Stream.send, if_pos]
        rw [hserver.2.2.1, List.length_drop, hlength]
        omega
      use .serverSend (.sent 1), Nat.one_pos, not_false
      simp only [TcpState.step, TcpState.serverSend, hpc, hsend, Option.map_some]
      refine ⟨_, rfl, ?_⟩
      intro hhealthy
      constructor
      · apply TcpServer.healthy_sendHead
      · apply hhealthy.client
  | counting index =>
      use .serverCount, trivial, not_false
      simp only [TcpState.step, TcpState.serverCount, hpc]
      refine ⟨_, rfl, ?_⟩
      intro hhealthy
      constructor
      · apply TcpServer.healthy_next
      · apply hhealthy.client
  | leaving =>
      use .serverFinish, trivial, not_false
      simp only [TcpState.step, TcpState.serverFinish, hpc]
      refine ⟨_, rfl, ?_⟩
      intro hhealthy
      constructor
      · trivial
      · apply hhealthy.client
  | failing failure =>
      use .serverFail, trivial, not_false
      simp only [TcpState.step, TcpState.serverFail, hpc]
      refine ⟨_, rfl, ?_⟩
      intro hhealthy
      have hfailing := hhealthy.server
      rw [hpc] at hfailing
      cases hfailing
  | finished => simp [ServerReady, hpc] at hready
  | failed failure => simp [ServerReady, hpc] at hready

/-- A server that cannot go on has finished, has failed, or has not received all of a message. -/
theorem At.server_cases (h : s.At u sent served echoed received) (hready : ¬s.ServerReady) :
  s.server.pc = .finished ∨ (∃ failure, s.server.pc = .failed failure)
    ∨ ∃ index r, s.server.pc = .receiving index r ∧ s.client.pc.closed = false
      ∧ sent = index * u.payloadBytes + r.offset ∧ r.offset < u.payloadBytes
      ∧ index < u.total ∧ echoed = index * u.payloadBytes
  := by
  have hserver := h.server
  cases hpc : s.server.pc with
  | receiving index r =>
      simp only [TcpServer.At, hpc] at hserver
      simp only [ServerReady, hpc, not_or, ne_eq, not_not, Bool.not_eq_true] at hready
      obtain ⟨hindex, -, hreceives, rfl, rfl⟩ := hserver
      have hoffset := hreceives.again_lt r rfl
      rw [hreceives.length_eq, u.length_message] at hoffset
      have hsent := h.requests.eq_nil_iff.mp hready.1
      right; right
      refine ⟨index, r, rfl, hready.2, hsent.symm, hoffset, hindex, rfl⟩
  | finished =>
      left
      rfl
  | failed failure =>
      right; left
      use failure
  | _ => simp [ServerReady, hpc] at hready

/-! ### The steps of the client -/

/-- The client loads the last announcement. -/
theorem At.clientLoad_advances (h : s.At u sent served echoed received) (hflag : s.Flag)
    (hready : ¬s.ServerReady) (hpc : s.client.pc = .starting ∨ s.client.pc = .started) :
  s.Advances u
  := by
  have hload := Location.load_last hflag.view_le
  -- a silent server can go on
  have hzero : s.serverState.current ≠ 0 := by
    intro hzero
    have hsilent := hflag.silent hzero
    rcases h.server_cases hready with hserverPc | ⟨failure, hserverPc⟩ | ⟨index, r, hserverPc, -⟩
    all_goals
      rw [hserverPc] at hsilent
      cases hsilent
  use .clientLoad s.serverState.last, trivial
  constructor
  · rintro ⟨-, hvalue⟩
    apply hzero hvalue
  · simp only [TcpState.step, TcpState.clientLoad, hload, Option.bind_some]
    rcases hpc with hpc | hpc
    · simp only [TcpClient.load, hpc, Option.map_some, if_neg hzero]
      refine ⟨_, rfl, ?_⟩
      intro hhealthy
      constructor
      · apply hhealthy.server
      · trivial
    · simp only [TcpClient.load, hpc, Option.map_some]
      refine ⟨_, rfl, ?_⟩
      intro hhealthy
      constructor
      · apply hhealthy.server
      · split_ifs with hlt
        · have hfailed := hflag.negative _ le_rfl hlt
          have hserver := hhealthy.server
          cases hserverPc : s.server.pc with
          | failed failure =>
              rw [hserverPc] at hserver
              cases hserver
          | _ => 
              rw [hserverPc] at hfailed
              cases hfailed
        · have hclient := h.live (by simp [hpc])
          simp only [TcpClient.At, hpc] at hclient
          rw [TcpClient.begin_eq]
          · apply TcpClient.healthy_next
          · rw [hclient.1]

/-- The client waits for an echo: the kernel has some of it, or the server can go on, or it has
failed. -/
theorem At.clientReceive_advances (h : s.At u sent served echoed received)
    (hready : ¬s.ServerReady) {loop : Loop} {index : ℕ} {started : UInt64} {r : ReceiveAll}
    (hpc : s.client.pc = .receiving loop index started r) :
  s.Advances u
  := by
  have hclient := h.live (by simp [hpc])
  simp only [TcpClient.At, hpc] at hclient
  obtain ⟨hindex, -, -, hreceives, hsent, hreceived⟩ := hclient
  have hoffset := hreceives.again_lt r rfl
  by_cases hne : s.responses = []
  · have hechoed := h.responses.eq_nil_iff.mp hne
    rw [hreceives.length_eq, u.length_message] at hoffset
    rcases h.server_cases hready with
      hserverPc | ⟨failure, hserverPc⟩ | ⟨index', r', hserverPc, hwaits⟩
    · have hserver := h.server
      simp only [TcpServer.At, hserverPc] at hserver
      have hle := Nat.mul_le_mul_right u.payloadBytes hindex.place_lt
      rw [Nat.succ_mul] at hle
      omega
    · use .clientReceive .endOfStream 0, trivial, not_false
      simp only [TcpState.step, TcpState.clientReceive, hpc]
      rw [Stream.recv, if_pos ⟨by rw [hserverPc]; rfl, hne⟩, Option.map_some]
      refine ⟨_, rfl, ?_⟩
      intro hhealthy
      have hunhealthy := hhealthy.server
      rw [hserverPc] at hunhealthy
      cases hunhealthy
    · obtain ⟨-, hsent', hoffset', -, hechoed'⟩ := hwaits
      rw [Nat.succ_mul] at hsent
      rcases Nat.lt_or_ge (u.place loop index) index' with hlt | hge
      · have hle := Nat.mul_le_mul_right u.payloadBytes (Nat.succ_le_of_lt hlt)
        rw [Nat.succ_mul] at hle
        omega
      · have hle := Nat.mul_le_mul_right u.payloadBytes hge
        omega
  · use .clientReceive (.deliver 1) 0, trivial, not_false
    simp only [TcpState.step, TcpState.clientReceive, hpc]
    rw [recv_one hne (by omega), Option.map_some]
    refine ⟨_, rfl, ?_⟩
    intro hhealthy
    have hstarted := hhealthy.client
    rw [hpc] at hstarted
    constructor
    · apply hhealthy.server
    · simp only
      rw [turn_one hne]
      apply TcpClient.healthy_head _ _ _ hstarted

/-- The client joins the server: it has ended, or it can go on. -/
theorem At.clientJoin_advances (h : s.At u sent served echoed received)
    (hready : ¬s.ServerReady) (hpc : s.client.pc = .joining) :
  s.Advances u
  := by
  have hclient := h.live (by simp [hpc])
  simp only [TcpClient.At, hpc] at hclient
  rcases h.server_cases hready with
    hserverPc | ⟨failure, hserverPc⟩ | ⟨index, r, hserverPc, hwaits⟩
  · have hserver := h.server
    simp only [TcpServer.At, hserverPc] at hserver
    obtain ⟨result, haccount, -⟩ := hclient.1.account hserver.1
    use .clientJoin, trivial, not_false
    simp only [TcpState.step, TcpState.clientJoin, hpc, hserverPc, haccount]
    refine ⟨_, rfl, ?_⟩
    intro hhealthy
    constructor
    · apply hhealthy.server
    · trivial
  · use .clientJoin, trivial, not_false
    simp only [TcpState.step, TcpState.clientJoin, hpc, hserverPc]
    refine ⟨_, rfl, ?_⟩
    intro hhealthy
    have hunhealthy := hhealthy.server
    rw [hserverPc] at hunhealthy
    cases hunhealthy
  · obtain ⟨-, hsent, hoffset, hindex, -⟩ := hwaits
    have hle := Nat.mul_le_mul_right u.payloadBytes (Nat.succ_le_of_lt hindex)
    rw [Nat.succ_mul] at hle
    omega

theorem At.clientRejoin_advances (h : s.At u sent served echoed received)
    (hready : ¬s.ServerReady) {failure : TcpFailure} (hpc : s.client.pc = .rejoining failure) :
  s.Advances u
  := by
  have hunhealthy : ¬s.Healthy := by
    intro hhealthy
    have hclient := hhealthy.client
    rw [hpc] at hclient
    apply hclient
  rcases h.server_cases hready with hserverPc | ⟨_, hserverPc⟩ | ⟨index, r, -, hclosed, -⟩
  · use .clientJoin, trivial, not_false
    simp only [TcpState.step, TcpState.clientJoin, hpc, hserverPc]
    refine ⟨_, rfl, ?_⟩
    intro hhealthy
    cases hunhealthy hhealthy
  · use .clientJoin, trivial, not_false
    simp only [TcpState.step, TcpState.clientJoin, hpc, hserverPc]
    refine ⟨_, rfl, ?_⟩
    intro hhealthy
    cases hunhealthy hhealthy
  · rw [hpc] at hclosed
    cases hclosed

/-- As long as the client has not ended, some step is busy. -/
theorem At.client_advances (h : s.At u sent served echoed received) (hflag : s.Flag)
    (hended : ¬s.Ended) :
  s.Advances u
  := by
  by_cases hready : s.ServerReady
  · apply h.server_advances hready
  · have hserver := h.server_cases hready
    cases hpc : s.client.pc with
    | starting => apply h.clientLoad_advances hflag hready (.inl hpc)
    | started => apply h.clientLoad_advances hflag hready (.inr hpc)
    | startFailed =>
        have hfailed := hflag.startFailed hpc
        cases hserverPc : s.server.pc with
        | failed failure =>
            use .clientJoin, trivial, not_false
            simp only [TcpState.step, TcpState.clientJoin, hpc, hserverPc]
            refine ⟨_, rfl, ?_⟩
            intro hhealthy
            have hunhealthy := hhealthy.server
            rw [hserverPc] at hunhealthy
            cases hunhealthy
        | _ =>
            rw [hserverPc] at hfailed
            cases hfailed
    | writing loop index =>
        have hclient := h.live (by simp [hpc])
        simp only [TcpClient.At, hpc] at hclient
        use .clientWrite 0, trivial, not_false
        simp only [TcpState.step, TcpState.clientWrite, hpc]
        refine ⟨_, rfl, ?_⟩
        intro hhealthy
        constructor
        · apply hhealthy.server
        · simp only
          rw [TcpClient.write_eq hclient.2.1]
          change (0 : UInt64) < lastReading
          decide
    | sending loop index started offset =>
        have hclient := h.live (by simp [hpc])
        simp only [TcpClient.At, hpc] at hclient
        have hlength := u.length_message (u.place loop index)
        have hsend : Stream.send s.requests (s.client.outbound.drop offset) (.sent 1)
            = some (s.requests ++ (s.client.outbound.drop offset).take 1) := by
          rw [Stream.send, if_pos]
          rw [hclient.2.2.1, List.length_drop, hlength]
          omega
        use .clientSend (.sent 1), Nat.one_pos, not_false
        simp only [TcpState.step, TcpState.clientSend, hpc, hsend, Option.map_some]
        refine ⟨_, rfl, ?_⟩
        intro hhealthy
        have hstarted := hhealthy.client
        rw [hpc] at hstarted
        constructor
        · apply hhealthy.server
        · apply TcpClient.healthy_sendHead _ _ _ hstarted
    | receiving loop index started r => apply h.clientReceive_advances hready hpc
    | exchanged loop index started =>
        have hclient := h.live (by simp [hpc])
        simp only [TcpClient.At, hpc] at hclient
        obtain ⟨-, -, houtbound, hinbound, -⟩ := hclient
        use .clientExamine lastReading, trivial, not_false
        simp only [TcpState.step, TcpState.clientExamine, hpc]
        refine ⟨_, rfl, ?_⟩
        intro hhealthy
        have hstarted := hhealthy.client
        rw [hpc] at hstarted
        constructor
        · apply hhealthy.server
        · apply TcpClient.healthy_examine hstarted houtbound hinbound
    | joining => apply h.clientJoin_advances hready hpc
    | returned result => cases hended (.inl ⟨result, hpc⟩)
    | unwinding failure =>
        use .clientShutdown, trivial, not_false
        simp only [TcpState.step, TcpState.clientShutdown, hpc]
        refine ⟨_, rfl, ?_⟩
        intro hhealthy
        have hclient := hhealthy.client
        rw [hpc] at hclient
        cases hclient
    | rejoining failure => apply h.clientRejoin_advances hready hpc
    | thrown failure => cases hended (.inr ⟨failure, hpc⟩)

/-! ### Every run -/

theorem flag_of_reachable (h : (tcpRun u).Reachable s) : s.Flag := by
  have hboth : s.Inv u ∧ s.Flag := by
    apply h.invariant (I := fun s => s.Inv u ∧ s.Flag)
    · use inv_initial u
      apply flag_initial u
    · rintro action s s' ⟨hinv, hflag⟩ hs
      use hinv.step hs
      apply hflag.step hinv hs
  apply hboth.2

theorem Inv.advances (h : s.Inv u) (hflag : s.Flag) (hended : ¬s.Ended) : s.Advances u := by
  obtain ⟨sent, served, echoed, received, hat⟩ := h
  apply hat.client_advances hflag hended

/-- The rank of a run at its beginning. -/
theorem rank_initial (u : TcpSetup) :
  (tcpRun u).initial.rank u = u.total * (4 * u.payloadBytes + 3) + 10
  := by
  have hserver : (tcpRun u).initial.server.rank u = u.total * (2 * u.payloadBytes + 1) + 4 := rfl
  have hclient : (tcpRun u).initial.client.rank u = u.total * (2 * u.payloadBytes + 2) + 6 := rfl
  have hweights : 4 * u.payloadBytes + 3 = (2 * u.payloadBytes + 1) + (2 * u.payloadBytes + 2) := by
    omega
  rw [rank, hserver, hclient, hweights,
    Nat.mul_add u.total (2 * u.payloadBytes + 1)]
  omega

/-- From a state of a run there is a way to its end, which fails only if something has failed
before. -/
theorem exists_ended (hinv : s.Inv u) (hflag : s.Flag) :
  ∃ actions s', (∀ action ∈ actions, action.Cooperative) ∧ actions.length ≤ s.rank u
    ∧ (tcpRun u).run actions s = some s' ∧ s'.Ended ∧ (s.Healthy → s'.Healthy)
  := by
  have hrun := TransitionSystem.exists_run_of_decreasing (M := tcpRun u)
    (I := fun t => t.Inv u ∧ t.Flag ∧ (s.Healthy → t.Healthy)) (C := TcpAction.Cooperative)
    Ended (rank u)
  obtain ⟨actions, s', hactions, hlength, hrun, ⟨-, -, hhealthy⟩, hended⟩ := hrun
    (by
      rintro t ⟨hinv, hflag, hhealthy⟩ hended
      obtain ⟨action, hcooperative, hidle, t', ht, hhealthy'⟩ := hinv.advances hflag hended
      refine ⟨action, t', hcooperative, ht, ⟨hinv.step ht, hflag.step hinv ht, ?_⟩, ?_⟩
      · intro hs
        apply hhealthy' (hhealthy hs)
      · rcases hinv.descends ht with hlt | ⟨hidle', -⟩
        · apply hlt
        · cases hidle hidle')
    ⟨hinv, hflag, id⟩
  refine ⟨actions, s', hactions, hlength, hrun, hended, hhealthy⟩

end TcpState

/-- A run makes a bounded number of busy steps, so an endless one is idle from some step on. As
long as the client has not ended, some busy step can be made without a failure. From every state
of a run some run without further failures ends it, and it returns a result if nothing had failed
before. -/
theorem tcp_progress (u : TcpSetup) :
  (∀ actions s, (tcpRun u).run actions (tcpRun u).initial = some s →
    (tcpRun u).work (TcpState.Idle u) actions (tcpRun u).initial
      ≤ u.total * (4 * u.payloadBytes + 3) + 10) ∧
  (∀ (states : ℕ → TcpState) (actions : ℕ → TcpAction), states 0 = (tcpRun u).initial →
    (∀ n, (tcpRun u).step (actions n) (states n) = some (states (n + 1))) →
    ∃ n, ∀ k, n ≤ k → (states k).Idle u (actions k)) ∧
  (∀ s, (tcpRun u).Reachable s → ¬s.Ended →
    ∃ action : TcpAction, action.Cooperative ∧ ¬s.Idle u action ∧
      ((tcpRun u).step action s).isSome) ∧
  ∀ s, (tcpRun u).Reachable s →
    ∃ actions s', (∀ action ∈ actions, action.Cooperative) ∧
      actions.length ≤ u.total * (4 * u.payloadBytes + 3) + 10 ∧
      (tcpRun u).run actions s = some s' ∧ s'.Ended ∧
      (s.Healthy → ∃ result, s'.client.pc = .returned result)
  := by
  have hpays := TcpState.pays u
  have hinitial := TcpState.inv_initial u
  refine ⟨?_, ?_, ?_, ?_⟩
  · intro actions s hrun
    have hwork := hpays.work_le hinitial hrun
    rw [TcpState.rank_initial] at hwork
    omega
  · intro states actions hstart hstep
    apply hpays.eventually_idle _ hstep
    rw [hstart]
    apply hinitial
  · intro s hs hended
    have hinv := TcpState.inv_of_reachable hs
    obtain ⟨action, hcooperative, hidle, s', hs', -⟩ :=
      hinv.advances (TcpState.flag_of_reachable hs) hended
    use action, hcooperative, hidle
    rw [Option.isSome_iff_exists]
    use s'
    apply hs'
  · intro s hs
    have hinv := TcpState.inv_of_reachable hs
    obtain ⟨before, hbefore⟩ := hs
    have hwork := hpays.work_le hinitial hbefore
    rw [TcpState.rank_initial] at hwork
    obtain ⟨actions, s', hactions, hlength, hrun, hended, hhealthy⟩ :=
      TcpState.exists_ended hinv (TcpState.flag_of_reachable ⟨before, hbefore⟩)
    refine ⟨actions, s', hactions, by omega, hrun, hended, ?_⟩
    intro hs
    rcases hended with hreturned | ⟨failure, hthrown⟩
    · apply hreturned
    · have hclient := (hhealthy hs).client
      rw [hthrown] at hclient
      cases hclient

end SocketLatency
