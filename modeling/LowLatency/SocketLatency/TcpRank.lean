import LowLatency.Library.Progress
import LowLatency.SocketLatency.TcpAccounting

/-!
# The rank of a TCP run

A step of a run is idle if the kernel interrupts a call, or has nothing to deliver to a receive
that polls, or if the client still waits for the server to start. A rank bounds the other steps
that are left: for each message a byte is sent or received at a time, in each direction.
-/

namespace SocketLatency

open Sockets (Errno EINTR EAGAIN EWOULDBLOCK SendOutcome RecvOutcome Turn)

variable {u : TcpSetup}

/-! ### Idle steps -/

/-- `receive_all` tries again after an error. -/
def TcpSetup.Retries (u : TcpSetup) (errno : Errno) : Prop :=
  errno = EINTR ∨
    u.options.profile.receiveWait = .spin ∧ (errno = EAGAIN ∨ errno = EWOULDBLOCK)

instance (u : TcpSetup) (errno : Errno) : Decidable (u.Retries errno) :=
  inferInstanceAs (Decidable (_ ∨ _ ∧ _))

/-- The client still finds that the server has not started. -/
def TcpState.Waits (s : TcpState) (place : ℕ) : Prop :=
  (match s.client.pc with
    | .starting => true
    | _ => false) = true ∧ s.serverState.value place = 0

instance (s : TcpState) (place : ℕ) : Decidable (s.Waits place) :=
  inferInstanceAs (Decidable (_ ∧ _))

/-- The kernel lets a call be tried again, or the client waits for the server to start. -/
def TcpState.Idle (u : TcpSetup) (s : TcpState) : TcpAction → Prop
  | .serverReceive (.failed errno) _ | .clientReceive (.failed errno) _ => u.Retries errno
  | .serverSend (.failed errno) | .clientSend (.failed errno) => errno = EINTR
  | .clientLoad place => s.Waits place
  | _ => False

instance (u : TcpSetup) (s : TcpState) (action : TcpAction) : Decidable (s.Idle u action) := by
  unfold TcpState.Idle
  split <;> infer_instance

/-! ### The turns of a message -/

namespace TcpSetup

variable {queue queue' : List Sockets.Byte} {k n stop start : ℕ} {closed : Bool}
  {answer : StreamAnswer} {outcome : RecvOutcome} {r : ReceiveAll} {spinDeadlineNs now : UInt64}

/-- What an iteration of `receive_all` comes to: more of the message, an exception, or as much of
it as before. -/
inductive ReceiveMoves (u : TcpSetup) (k : ℕ) (r : ReceiveAll) : StreamAnswer → ReceiveTurn → Prop
  | more {t : ReceiveTurn} (count n : ℕ) (hlt : r.offset < n) (hle : n ≤ u.payloadBytes)
      (h : Receives (u.message k) n t) : ReceiveMoves u k r (.deliver count) t
  | closed : ReceiveMoves u k r .endOfStream (.done r (.error .peerClosed))
  | idle {t : ReceiveTurn} (errno : Errno) (hretries : u.Retries errno)
      (h : Receives (u.message k) r.offset t) : ReceiveMoves u k r (.failed errno) t
  | failed (errno : Errno) (hretries : ¬u.Retries errno) :
      ReceiveMoves u k r (.failed errno) (.done r (.error (.recv errno)))

theorem receiveMoves (spinDeadlineNs now : UInt64)
    (hcarries : Pipe.Carries u.stream queue stop (k * u.payloadBytes + r.offset))
    (hk : k < u.total) (hr : Receives (u.message k) r.offset (.again r))
    (hrecv : Stream.recv queue closed (r.bytes.length - r.offset) answer
      = some (outcome, queue')) :
  u.ReceiveMoves k r answer
    (r.turn u.options.profile.receiveWait spinDeadlineNs { outcome := outcome, now := now })
  := by
  have hlength := u.length_message k
  have hoffset := hr.again_lt r rfl
  rw [hr.length_eq, hlength] at hrecv hoffset
  obtain ⟨count, hle, hdelivered, -⟩ := carries_recv hcarries hk hoffset.le hrecv
  have hcount : outcome.delivered.length = count := by
    rw [hdelivered, List.length_take, List.length_drop, hlength]
    omega
  have hturn : Receives (u.message k) (r.offset + count)
      (r.turn u.options.profile.receiveWait spinDeadlineNs { outcome := outcome, now := now }) := by
    apply hr.turn _ hdelivered
    rw [hlength]
    apply hle
  cases answer with
  | deliver requested =>
      rw [Stream.recv, Option.ite_none_right_eq_some, Option.some.injEq, Prod.mk.injEq] at hrecv
      obtain ⟨⟨hpos, -, hqueue⟩, rfl, rfl⟩ := hrecv
      rw [RecvOutcome.delivered, List.length_take, Nat.min_eq_left hqueue] at hcount
      apply ReceiveMoves.more requested _ _ hle hturn
      omega
  | endOfStream =>
      rw [Stream.recv, Option.ite_none_right_eq_some, Option.some.injEq, Prod.mk.injEq] at hrecv
      obtain ⟨-, rfl, rfl⟩ := hrecv
      apply ReceiveMoves.closed
  | failed errno =>
      rw [Stream.recv, Option.some.injEq, Prod.mk.injEq] at hrecv
      obtain ⟨rfl, rfl⟩ := hrecv
      by_cases hretries : u.Retries errno
      · obtain rfl : count = 0 := hcount.symm
        apply ReceiveMoves.idle errno hretries hturn
      · have herror : r.turn u.options.profile.receiveWait spinDeadlineNs
            { outcome := .failed errno, now := now } = .done r (.error (.recv errno)) := by
          rw [Retries, not_or] at hretries
          rw [ReceiveAll.turn]
          simp only
          rw [if_neg hretries.1, if_neg hretries.2]
        rw [herror]
        apply ReceiveMoves.failed errno hretries

/-- What a turn of `send_all` comes to. -/
inductive SendMoves (u : TcpSetup) (offset : ℕ) : SendOutcome → SendTurn → Prop
  | more {t : SendTurn} (count n : ℕ) (hlt : offset < n) (hle : n ≤ u.payloadBytes)
      (hcount : 0 < count) (h : Sends u.payloadBytes n t) : SendMoves u offset (.sent count) t
  | noProgress : SendMoves u offset (.sent 0) (.done offset (.error .noProgress))
  | idle {t : SendTurn} (h : Sends u.payloadBytes offset t) : SendMoves u offset (.failed EINTR) t
  | failed (errno : Errno) (hinterrupted : errno ≠ EINTR) :
      SendMoves u offset (.failed errno) (.done offset (.error (.send errno)))

theorem sendMoves {outcome : SendOutcome} (hn : n ≤ u.payloadBytes)
    (hsend : Stream.send queue ((u.message k).drop n) outcome = some queue') :
  u.SendMoves n outcome (SendAll.turn (u.message k) n outcome)
  := by
  have hlength := u.length_message k
  cases outcome with
  | sent count =>
      rw [Stream.send, Option.ite_none_right_eq_some, List.length_drop, hlength] at hsend
      obtain ⟨hcount, -⟩ := hsend
      rcases Nat.eq_zero_or_pos count with rfl | hpos
      · apply SendMoves.noProgress
      · apply SendMoves.more count (n + count)
        · omega
        · omega
        · apply hpos
        · rw [← hlength]
          apply Sends.turn_sent
          omega
  | failed errno =>
      by_cases hinterrupted : errno = EINTR
      · subst hinterrupted
        apply SendMoves.idle
        rw [← hlength]
        apply Sends.turn_failed
        omega
      · rw [SendAll.turn, if_neg hinterrupted]
        apply SendMoves.failed errno hinterrupted

end TcpSetup

/-! ### The rank of a run -/

/-- The steps that are left for the messages from `k` on, where each takes `weight`. -/
def TcpSetup.left (u : TcpSetup) (weight k : ℕ) : ℕ :=
  (u.total - k) * weight

theorem TcpSetup.left_succ (weight : ℕ) {k : ℕ} (hk : k < u.total) :
  u.left weight (k + 1) + weight = u.left weight k
  := by
  rw [left, left, ← Nat.succ_mul]
  congr 1
  omega

/-- The weight of a message for the server. -/
def TcpSetup.serverWeight (u : TcpSetup) : ℕ := 2 * u.payloadBytes + 1

/-- The weight of a message for the client. -/
def TcpSetup.clientWeight (u : TcpSetup) : ℕ := 2 * u.payloadBytes + 2

/-- A bound on the busy steps that are left of the server. -/
def TcpServer.rank (u : TcpSetup) (s : TcpServer) : ℕ :=
  match s.pc with
  | .starting => u.left u.serverWeight 0 + 4
  | .receiving index r =>
      u.left u.serverWeight (index + 1) + (u.serverWeight - r.offset) + 3
  | .sending index offset =>
      u.left u.serverWeight (index + 1) + (u.payloadBytes + 1 - offset) + 3
  | .counting index => u.left u.serverWeight (index + 1) + 4
  | .leaving => 3
  | .failing _ => 2
  | .finished | .failed _ => 0

/-- A bound on the busy steps that are left of the client. -/
def TcpClient.rank (u : TcpSetup) (c : TcpClient) : ℕ :=
  match c.pc with
  | .starting => u.left u.clientWeight 0 + 6
  | .started => u.left u.clientWeight 0 + 5
  | .startFailed => 1
  | .writing loop index => u.left u.clientWeight (u.place loop index) + 4
  | .sending loop index _ offset =>
      u.left u.clientWeight (u.place loop index + 1) + (2 * u.payloadBytes + 1 - offset) + 4
  | .receiving loop index _ r =>
      u.left u.clientWeight (u.place loop index + 1) + (u.payloadBytes + 1 - r.offset) + 4
  | .exchanged loop index _ => u.left u.clientWeight (u.place loop index + 1) + 5
  | .joining => 4
  | .unwinding _ => 3
  | .rejoining _ => 2
  | .returned _ | .thrown _ => 0

def TcpState.rank (u : TcpSetup) (s : TcpState) : ℕ :=
  s.server.rank u + s.client.rank u

namespace TcpServer

variable {s : TcpServer} {index n : ℕ}

theorem rank_settleReceive (s : TcpServer) {t : ReceiveTurn} (ht : Receives (u.message index) n t)
    (hn : n ≤ u.payloadBytes) :
  (s.settleReceive index t).rank u
    ≤ u.left u.serverWeight (index + 1) + (u.serverWeight - n) + 3
  := by
  have hlength := u.length_message index
  rcases t with r | ⟨r, failure | ⟨⟩⟩
  · obtain rfl := ht.offset_eq (by omega)
    apply le_rfl
  · simp only [settleReceive, rank]
    omega
  · obtain ⟨-, rfl⟩ := ht.bytes_eq (by omega)
    simp only [settleReceive, rank, TcpSetup.serverWeight]
    omega

theorem rank_settleSend (s : TcpServer) (index : ℕ) {t : SendTurn}
    (ht : Sends u.payloadBytes n t) :
  (s.settleSend index t).rank u
    ≤ u.left u.serverWeight (index + 1) + (u.payloadBytes + 1 - n) + 3
  := by
  rcases t with offset | ⟨offset, failure | ⟨⟩⟩
  · obtain ⟨rfl, -⟩ := ht.again offset rfl
    apply le_rfl
  · simp only [settleSend, rank]
    omega
  · obtain rfl := ht.returned offset rfl
    simp only [settleSend, rank]
    omega

theorem rank_next (index : ℕ) (hlength : s.message.length = u.payloadBytes) :
  (s.next u index).rank u ≤ u.left u.serverWeight index + 3
  := by
  have hle := u.eight_le_payloadBytes
  have hmessage := u.length_message index
  rw [next]
  split_ifs with hlt
  · have hleft := u.left_succ u.serverWeight hlt
    have hrank : (s.settleReceive index (ReceiveAll.start s.message)).rank u
        ≤ u.left u.serverWeight (index + 1) + (u.serverWeight - 0) + 3 := by
      apply rank_settleReceive _ _ (Nat.zero_le _)
      apply Receives.start
      · omega
      · omega
    omega
  · simp only [rank]
    omega

end TcpServer

namespace TcpClient

variable {c : TcpClient} {loop : Loop} {index n : ℕ} {started now : UInt64}

theorem rank_settleReceive (c : TcpClient) (started : UInt64) {t : ReceiveTurn}
    (ht : Receives (u.message (u.place loop index)) n t) (hn : n ≤ u.payloadBytes) :
  (c.settleReceive loop index started t).rank u
    ≤ u.left u.clientWeight (u.place loop index + 1) + (u.payloadBytes + 1 - n) + 4
  := by
  have hlength := u.length_message (u.place loop index)
  rcases t with r | ⟨r, failure | ⟨⟩⟩
  · obtain rfl := ht.offset_eq (by omega)
    apply le_rfl
  · simp only [settleReceive, throw, rank]
    omega
  · obtain ⟨-, rfl⟩ := ht.bytes_eq (by omega)
    simp only [settleReceive, rank]
    omega

theorem rank_settleSend (loop : Loop) (index : ℕ) (started : UInt64) {t : SendTurn}
    (ht : Sends u.payloadBytes n t) (hinbound : c.inbound.length = u.payloadBytes) :
  (c.settleSend loop index started t).rank u
    ≤ u.left u.clientWeight (u.place loop index + 1) + (2 * u.payloadBytes + 1 - n) + 4
  := by
  have hle := u.eight_le_payloadBytes
  have hlength := u.length_message (u.place loop index)
  rcases t with offset | ⟨offset, failure | ⟨⟩⟩
  · obtain ⟨rfl, -⟩ := ht.again offset rfl
    apply le_rfl
  · simp only [settleSend, throw, rank]
    omega
  · obtain rfl := ht.returned offset rfl
    have hrank : (c.settleReceive loop index started (ReceiveAll.start c.inbound)).rank u
        ≤ u.left u.clientWeight (u.place loop index + 1) + (u.payloadBytes + 1 - 0) + 4 := by
      apply rank_settleReceive _ _ _ (Nat.zero_le _)
      apply Receives.start
      · omega
      · omega
    simp only [settleSend]
    omega

theorem rank_next (c : TcpClient) (hindex : u.Reaches loop index) :
  (c.next u loop index).rank u ≤ u.left u.clientWeight (u.place loop index) + 4
  := by
  cases loop with
  | warmup =>
      simp only [TcpSetup.Reaches] at hindex
      rw [next]
      split_ifs
      · apply le_rfl
      · obtain rfl : index = u.options.warmup := by omega
        apply le_rfl
      · simp only [rank]
        omega
  | measured =>
      rw [next]
      split_ifs
      · apply le_rfl
      · simp only [rank]
        omega

theorem rank_examine {finished : UInt64} (hindex : u.Within loop index)
    (houtbound : c.outbound = u.message (u.place loop index))
    (hinbound : c.inbound = u.message (u.place loop index)) :
  (c.examine u index started finished loop).rank u
    ≤ u.left u.clientWeight (u.place loop index + 1) + 4
  := by
  cases loop with
  | warmup =>
      rw [examine, examineWarmup_eq houtbound hinbound]
      apply rank_next c hindex.reaches
  | measured =>
      rw [examine]
      by_cases hlt : started < finished
      · rw [examineMeasured_eq hlt houtbound hinbound]
        apply rank_next (c.sample u index (finished - started)) hindex.reaches
      · rw [examineMeasured, if_pos (UInt64.not_lt.mp hlt)]
        simp only [throw, rank]
        omega

end TcpClient

/-! ### Busy steps -/

namespace TcpState

variable {s s' : TcpState}

/-- A step decreases the rank, or it is idle and does not increase it. -/
def Descends (u : TcpSetup) (s : TcpState) (action : TcpAction) (s' : TcpState) : Prop :=
  s'.rank u < s.rank u ∨ s.Idle u action ∧ s'.rank u ≤ s.rank u

theorem descends_server {action : TcpAction} (hclient : s'.client = s.client)
    (hlt : s'.server.rank u < s.server.rank u) :
  s.Descends u action s'
  := by
  left
  rw [rank, rank, hclient]
  omega

theorem descends_client {action : TcpAction} (hserver : s'.server = s.server)
    (hlt : s'.client.rank u < s.client.rank u) :
  s.Descends u action s'
  := by
  left
  rw [rank, rank, hserver]
  omega

theorem Inv.serverStart_descends (h : s.Inv u) (hs : s.serverStart u = some s') :
  s.Descends u .serverStart s'
  := by
  obtain ⟨sent, served, echoed, received, hat⟩ := h
  cases hpc : s.server.pc with
  | starting =>
      simp only [TcpState.serverStart, hpc, Option.some.injEq] at hs
      subst hs
      have hserver := hat.server
      simp only [TcpServer.At, hpc] at hserver
      have hlength : s.server.message.length = u.payloadBytes := by
        rw [hserver.1]
        apply List.length_replicate
      have hrank : s.server.rank u = u.left u.serverWeight 0 + 4 := by
        simp only [TcpServer.rank, hpc]
      have hnext := TcpServer.rank_next 0 hlength
      apply descends_server
      · rfl
      · simp only
        omega
  | _ => simp [TcpState.serverStart, hpc] at hs

theorem Inv.serverReceive_descends (h : s.Inv u) {answer : StreamAnswer} {now : UInt64}
    (hs : s.serverReceive u answer now = some s') :
  s.Descends u (.serverReceive answer now) s'
  := by
  obtain ⟨sent, served, echoed, received, hat⟩ := h
  cases hpc : s.server.pc with
  | receiving index r =>
      simp only [TcpState.serverReceive, hpc, Option.map_eq_some_iff] at hs
      obtain ⟨⟨outcome, requests⟩, hrecv, rfl⟩ := hs
      have hserver := hat.server
      simp only [TcpServer.At, hpc] at hserver
      obtain ⟨hindex, -, hreceives, rfl, -⟩ := hserver
      have hoffset := hreceives.again_lt r rfl
      rw [hreceives.length_eq, u.length_message] at hoffset
      have hrank : s.server.rank u
          = u.left u.serverWeight (index + 1) + (u.serverWeight - r.offset) + 3 := by
        simp only [TcpServer.rank, hpc]
      have hweight : u.serverWeight = 2 * u.payloadBytes + 1 := rfl
      have hmoves := TcpSetup.receiveMoves noDeadline now hat.requests hindex hreceives hrecv
      generalize r.turn u.options.profile.receiveWait noDeadline _ = t at hmoves ⊢
      cases hmoves with
      | more count n hlt hle hturn =>
          have hsettle := TcpServer.rank_settleReceive s.server hturn hle
          apply descends_server
          · rfl
          · simp only
            omega
      | closed | failed =>
          apply descends_server
          · rfl
          · simp only [TcpServer.settleReceive, TcpServer.rank] at hrank ⊢
            omega
      | idle errno hretries hturn =>
          have hsettle := TcpServer.rank_settleReceive s.server hturn hoffset.le
          right
          use hretries
          simp only [rank]
          omega
  | _ => simp [TcpState.serverReceive, hpc] at hs

theorem Inv.serverSend_descends (h : s.Inv u) {outcome : SendOutcome}
    (hs : s.serverSend outcome = some s') :
  s.Descends u (.serverSend outcome) s'
  := by
  obtain ⟨sent, served, echoed, received, hat⟩ := h
  cases hpc : s.server.pc with
  | sending index offset =>
      simp only [TcpState.serverSend, hpc, Option.map_eq_some_iff] at hs
      obtain ⟨responses, hsend, rfl⟩ := hs
      have hserver := hat.server
      simp only [TcpServer.At, hpc] at hserver
      obtain ⟨hindex, -, hmessage, hoffset, -, rfl⟩ := hserver
      rw [hmessage] at hsend ⊢
      have hrank : s.server.rank u
          = u.left u.serverWeight (index + 1) + (u.payloadBytes + 1 - offset) + 3 := by
        simp only [TcpServer.rank, hpc]
      have hmoves := TcpSetup.sendMoves hoffset.le hsend
      generalize SendAll.turn (u.message index) offset outcome = t at hmoves ⊢
      cases hmoves with
      | more count n hlt hle hcount hturn =>
          have hsettle := TcpServer.rank_settleSend s.server index hturn
          apply descends_server
          · rfl
          · simp only
            omega
      | noProgress | failed =>
          apply descends_server
          · rfl
          · simp only [TcpServer.settleSend, TcpServer.rank] at hrank ⊢
            omega
      | idle hturn =>
          have hsettle := TcpServer.rank_settleSend s.server index hturn
          right
          use rfl
          simp only [rank]
          omega
  | _ => simp [TcpState.serverSend, hpc] at hs

theorem Inv.serverCount_descends (h : s.Inv u) (hs : s.serverCount u = some s') :
  s.Descends u .serverCount s'
  := by
  obtain ⟨sent, served, echoed, received, hat⟩ := h
  cases hpc : s.server.pc with
  | counting index =>
      simp only [TcpState.serverCount, hpc, Option.some.injEq] at hs
      subst hs
      have hserver := hat.server
      simp only [TcpServer.At, hpc] at hserver
      have hlength : s.server.message.length = u.payloadBytes := by
        rw [hserver.2.2.1]
        apply u.length_message
      have hrank : s.server.rank u = u.left u.serverWeight (index + 1) + 4 := by
        simp only [TcpServer.rank, hpc]
      apply descends_server
      · rfl
      · rw [hrank]
        apply Nat.lt_succ_of_le
        apply TcpServer.rank_next
        apply hlength
  | _ => simp [TcpState.serverCount, hpc] at hs

theorem serverFinish_descends (hs : s.serverFinish = some s') :
  s.Descends u .serverFinish s'
  := by
  cases hpc : s.server.pc with
  | leaving =>
      simp only [TcpState.serverFinish, hpc, Option.some.injEq] at hs
      subst hs
      apply descends_server
      · rfl
      · simp only [TcpServer.rank, hpc]
        omega
  | _ => simp [TcpState.serverFinish, hpc] at hs

/-- A server that is running is not yet failing. -/
theorem serverThrow_descends {operation : String} (hs : s.serverThrow operation = some s') :
  s.Descends u (.serverThrow operation) s'
  := by
  apply descends_server
  · cases hpc : s.server.pc <;> simp [TcpState.serverThrow, hpc] at hs <;> subst hs <;> rfl
  · cases hpc : s.server.pc <;> simp [TcpState.serverThrow, hpc] at hs <;> subst hs <;>
      simp only [TcpServer.rank, hpc] <;> omega

theorem serverFail_descends (hs : s.serverFail = some s') :
  s.Descends u .serverFail s'
  := by
  cases hpc : s.server.pc with
  | failing failure =>
      simp only [TcpState.serverFail, hpc, Option.some.injEq] at hs
      subst hs
      apply descends_server
      · rfl
      · simp only [TcpServer.rank, hpc]
        omega
  | _ => simp [TcpState.serverFail, hpc] at hs

theorem Inv.clientLoad_descends (h : s.Inv u) {place : ℕ} (hs : s.clientLoad u place = some s') :
  s.Descends u (.clientLoad place) s'
  := by
  obtain ⟨sent, served, echoed, received, hat⟩ := h
  simp only [TcpState.clientLoad, Option.bind_eq_some_iff, Option.map_eq_some_iff] at hs
  obtain ⟨state, hstate, client, hload, rfl⟩ := hs
  cases hpc : s.client.pc with
  | starting =>
      simp only [TcpClient.load, hpc, Option.some.injEq] at hload
      subst hload
      have hrank : s.client.rank u = u.left u.clientWeight 0 + 6 := by
        simp only [TcpClient.rank, hpc]
      by_cases hzero : state = 0
      · obtain ⟨-, -, hvalue⟩ := Location.load_eq_some_iff.mp hstate
        right
        constructor
        · constructor
          · rw [hpc]
          · rw [hvalue, hzero]
        · simp only [rank, TcpClient.rank, if_pos hzero] at hrank ⊢
          omega
      · apply descends_client
        · rfl
        · simp only [TcpClient.rank, if_neg hzero] at hrank ⊢
          omega
  | started =>
      simp only [TcpClient.load, hpc, Option.some.injEq] at hload
      subst hload
      have hrank : s.client.rank u = u.left u.clientWeight 0 + 5 := by
        simp only [TcpClient.rank, hpc]
      have hclient := hat.live (by simp [hpc])
      simp only [TcpClient.At, hpc] at hclient
      apply descends_client
      · rfl
      · split_ifs
        · simp only [TcpClient.rank] at hrank ⊢
          omega
        · rw [TcpClient.begin_eq]
          · rw [hrank]
            apply Nat.lt_succ_of_le
            apply TcpClient.rank_next _ u.reaches_zero
          · rw [hclient.1]
  | _ => simp [TcpClient.load, hpc] at hload

theorem Inv.clientWrite_descends (h : s.Inv u) {now : UInt64}
    (hs : s.clientWrite u now = some s') :
  s.Descends u (.clientWrite now) s'
  := by
  obtain ⟨sent, served, echoed, received, hat⟩ := h
  cases hpc : s.client.pc with
  | writing loop index =>
      simp only [TcpState.clientWrite, hpc, Option.some.injEq] at hs
      subst hs
      have hclient := hat.live (by simp [hpc])
      simp only [TcpClient.At, hpc] at hclient
      have hleft := u.left_succ u.clientWeight hclient.1.place_lt
      have hweight : u.clientWeight = 2 * u.payloadBytes + 2 := rfl
      have hrank : s.client.rank u = u.left u.clientWeight (u.place loop index) + 4 := by
        simp only [TcpClient.rank, hpc]
      apply descends_client
      · rfl
      · simp only
        rw [TcpClient.write_eq hclient.2.1]
        simp only [TcpClient.settleSend, TcpClient.rank] at hrank ⊢
        omega
  | _ => simp [TcpState.clientWrite, hpc] at hs

theorem Inv.clientSend_descends (h : s.Inv u) {outcome : SendOutcome}
    (hs : s.clientSend outcome = some s') :
  s.Descends u (.clientSend outcome) s'
  := by
  obtain ⟨sent, served, echoed, received, hat⟩ := h
  cases hpc : s.client.pc with
  | sending loop index started offset =>
      simp only [TcpState.clientSend, hpc, Option.map_eq_some_iff] at hs
      obtain ⟨requests, hsend, rfl⟩ := hs
      have hclient := hat.live (by simp [hpc])
      simp only [TcpClient.At, hpc] at hclient
      obtain ⟨-, hready, houtbound, hoffset, -, -⟩ := hclient
      rw [houtbound] at hsend ⊢
      have hrank : s.client.rank u = u.left u.clientWeight (u.place loop index + 1)
          + (2 * u.payloadBytes + 1 - offset) + 4 := by
        simp only [TcpClient.rank, hpc]
      have hmoves := TcpSetup.sendMoves hoffset.le hsend
      generalize SendAll.turn (u.message (u.place loop index)) offset outcome = t at hmoves ⊢
      cases hmoves with
      | more count n hlt hle hcount hturn =>
          have hsettle := TcpClient.rank_settleSend loop index started hturn hready.inbound
          apply descends_client
          · rfl
          · simp only
            omega
      | noProgress | failed =>
          apply descends_client
          · rfl
          · simp only [TcpClient.settleSend, TcpClient.throw, TcpClient.rank] at hrank ⊢
            omega
      | idle hturn =>
          have hsettle := TcpClient.rank_settleSend loop index started hturn hready.inbound
          right
          use rfl
          simp only [rank]
          omega
  | _ => simp [TcpState.clientSend, hpc] at hs

theorem Inv.clientReceive_descends (h : s.Inv u) {answer : StreamAnswer} {now : UInt64}
    (hs : s.clientReceive u answer now = some s') :
  s.Descends u (.clientReceive answer now) s'
  := by
  obtain ⟨sent, served, echoed, received, hat⟩ := h
  cases hpc : s.client.pc with
  | receiving loop index started r =>
      simp only [TcpState.clientReceive, hpc, Option.map_eq_some_iff] at hs
      obtain ⟨⟨outcome, responses⟩, hrecv, rfl⟩ := hs
      have hclient := hat.live (by simp [hpc])
      simp only [TcpClient.At, hpc] at hclient
      obtain ⟨hindex, -, -, hreceives, -, rfl⟩ := hclient
      have hoffset := hreceives.again_lt r rfl
      rw [hreceives.length_eq, u.length_message] at hoffset
      have hrank : s.client.rank u = u.left u.clientWeight (u.place loop index + 1)
          + (u.payloadBytes + 1 - r.offset) + 4 := by
        simp only [TcpClient.rank, hpc]
      have hmoves := TcpSetup.receiveMoves (started + tcpSpinSafetyTimeoutNs) now hat.responses
        hindex.place_lt hreceives hrecv
      generalize r.turn u.options.profile.receiveWait (started + tcpSpinSafetyTimeoutNs) _ = t
        at hmoves ⊢
      cases hmoves with
      | more count n hlt hle hturn =>
          have hsettle := TcpClient.rank_settleReceive s.client started hturn hle
          apply descends_client
          · rfl
          · simp only
            omega
      | closed | failed =>
          apply descends_client
          · rfl
          · simp only [TcpClient.settleReceive, TcpClient.throw, TcpClient.rank] at hrank ⊢
            omega
      | idle errno hretries hturn =>
          have hsettle := TcpClient.rank_settleReceive s.client started hturn hoffset.le
          right
          use hretries
          simp only [rank]
          omega
  | _ => simp [TcpState.clientReceive, hpc] at hs

theorem Inv.clientExamine_descends (h : s.Inv u) {now : UInt64}
    (hs : s.clientExamine u now = some s') :
  s.Descends u (.clientExamine now) s'
  := by
  obtain ⟨sent, served, echoed, received, hat⟩ := h
  cases hpc : s.client.pc with
  | exchanged loop index started =>
      simp only [TcpState.clientExamine, hpc, Option.some.injEq] at hs
      subst hs
      have hclient := hat.live (by simp [hpc])
      simp only [TcpClient.At, hpc] at hclient
      obtain ⟨hindex, -, houtbound, hinbound, -, -⟩ := hclient
      have hrank : s.client.rank u = u.left u.clientWeight (u.place loop index + 1) + 5 := by
        simp only [TcpClient.rank, hpc]
      apply descends_client
      · rfl
      · rw [hrank]
        apply Nat.lt_succ_of_le
        apply TcpClient.rank_examine hindex houtbound hinbound
  | _ => simp [TcpState.clientExamine, hpc] at hs

/-- After the join the client has come to its end. -/
theorem clientJoin_descends (hs : s.clientJoin u = some s') :
  s.Descends u .clientJoin s'
  := by
  have hrank : s'.server = s.server ∧ s'.client.rank u = 0 ∧ 0 < s.client.rank u := by
    cases hpc : s.client.pc with
    | startFailed | joining | rejoining =>
        simp only [TcpState.clientJoin, hpc] at hs
        split at hs <;> try split at hs
        all_goals cases hs <;> simp [TcpClient.rank, hpc]
    | _ => simp [TcpState.clientJoin, hpc] at hs
  obtain ⟨hserver, hzero, hpos⟩ := hrank
  apply descends_client
  · apply hserver
  · omega

theorem clientShutdown_descends (hs : s.clientShutdown = some s') :
  s.Descends u .clientShutdown s'
  := by
  cases hpc : s.client.pc with
  | unwinding failure =>
      simp only [TcpState.clientShutdown, hpc, Option.some.injEq] at hs
      subst hs
      apply descends_client
      · rfl
      · simp only [TcpClient.rank, hpc]
        omega
  | _ => simp [TcpState.clientShutdown, hpc] at hs

theorem clientThrow_descends {operation : String} (hs : s.clientThrow operation = some s') :
  s.Descends u (.clientThrow operation) s'
  := by
  apply descends_client
  · cases hpc : s.client.pc <;> simp [TcpState.clientThrow, hpc] at hs <;> subst hs <;> rfl
  · cases hpc : s.client.pc <;> simp [TcpState.clientThrow, hpc] at hs <;> subst hs <;>
      simp only [TcpClient.throw, TcpClient.rank, hpc] <;> omega

theorem Inv.descends {action : TcpAction} (h : s.Inv u) (hs : s.step u action = some s') :
  s.Descends u action s'
  := by
  cases action with
  | serverStart => apply h.serverStart_descends hs
  | serverReceive answer now => apply h.serverReceive_descends hs
  | serverSend outcome => apply h.serverSend_descends hs
  | serverCount => apply h.serverCount_descends hs
  | serverFinish => apply serverFinish_descends hs
  | serverThrow operation => apply serverThrow_descends hs
  | serverFail => apply serverFail_descends hs
  | clientLoad place => apply h.clientLoad_descends hs
  | clientWrite now => apply h.clientWrite_descends hs
  | clientSend outcome => apply h.clientSend_descends hs
  | clientReceive answer now => apply h.clientReceive_descends hs
  | clientExamine now => apply h.clientExamine_descends hs
  | clientJoin => apply clientJoin_descends hs
  | clientShutdown => apply clientShutdown_descends hs
  | clientThrow operation => apply clientThrow_descends hs

/-- The rank pays for the busy steps. -/
theorem pays (u : TcpSetup) :
  (tcpRun u).Pays (TcpState.Idle u) (TcpState.Inv u) (TcpState.rank u)
  := by
  intro action s s' h hs
  use h.step hs
  rcases h.descends hs with hlt | ⟨hidle, hle⟩
  · split_ifs <;> omega
  · rw [if_pos hidle]
    apply hle

end TcpState

end SocketLatency
