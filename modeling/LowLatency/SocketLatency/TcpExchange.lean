import LowLatency.Library.Pipe
import LowLatency.SocketLatency.Messages
import LowLatency.SocketLatency.TcpRun

/-!
# Exact echoes over TCP

Both directions of the connection carry the same stream: the messages of the run, one after
another. Each end stands at some position of the stream with what it has sent and with what it
has received, and its place in the program tells both. So a message is received as it was sent,
whatever pieces the kernel makes of it, and the validations of the client never fail.
-/

namespace SocketLatency

open Sockets (Byte SendOutcome RecvOutcome Turn)
open ReceiveAll (Filling Filled)

/-! ### A message being received -/

/-- A turn of `receive_all` has received the first `n` bytes of a message. -/
structure Receives (message : List Byte) (n : ℕ) (t : ReceiveTurn) : Prop where
  filled : ∃ bytes before, Filled bytes before t ∧ bytes.length = message.length
    ∧ ReceiveAll.delivered before = message.take n
  again_lt : ∀ r, t = .again r → r.offset < r.bytes.length

namespace Receives

variable {message : List Byte} {n count : ℕ} {r : ReceiveAll} {poll : Poll}
  {strategy : WaitStrategy} {spinDeadlineNs : UInt64}

/-- A receive goes on only while the buffer is not full. -/
theorem offset_lt_of_turn {r' : ReceiveAll}
    (h : r.turn strategy spinDeadlineNs poll = .again r') :
  r'.offset < r'.bytes.length
  := by
  have hhead (r : ReceiveAll) (h : r.head = .again r') : r'.offset < r'.bytes.length := by
    rcases ReceiveAll.head_cases r with ⟨hhead, hlt⟩ | ⟨hhead, -⟩
    · rw [hhead] at h
      obtain rfl := Turn.again.inj h
      apply hlt
    · rw [hhead] at h
      cases h
  have hturned := ReceiveAll.turned strategy spinDeadlineNs r poll
  generalize ReceiveAll.turn strategy spinDeadlineNs r poll = t at h hturned
  cases hturned with
  | filled | interrupted | unwatched | counted | checked => apply hhead _ h
  | timedOut | failed => cases h

/-- Nothing is received at the beginning. -/
theorem start {bytes : List Byte} (hlength : bytes.length = message.length)
    (hpos : 0 < message.length) :
  Receives message 0 (ReceiveAll.start bytes)
  := by
  constructor
  · refine ⟨bytes, [], ?_, hlength, ?_⟩
    · apply Filling.head
      constructor
      · rfl
      · rfl
      · apply Nat.zero_le
    · rw [List.take_zero]
      rfl
  · intro r hr
    rw [ReceiveAll.start, ReceiveAll.head, if_pos (by simp only; omega)] at hr
    obtain rfl := Turn.again.inj hr
    simp only
    omega

theorem length_eq (h : Receives message n (.again r)) :
  r.bytes.length = message.length
  := by
  obtain ⟨bytes, before, hfilled, hlength, -⟩ := h.filled
  rw [(hfilled.filling r rfl).length, hlength]

theorem offset_eq (h : Receives message n (.again r)) (hn : n ≤ message.length) :
  r.offset = n
  := by
  obtain ⟨bytes, before, hfilled, -, hdelivered⟩ := h.filled
  have hoffset := (hfilled.filling r rfl).offset
  rw [hdelivered, List.length_take, Nat.min_eq_left hn] at hoffset
  apply hoffset.symm

/-- What is returned is the message. -/
theorem bytes_eq (h : Receives message n (.done r (.ok ()))) (hn : n ≤ message.length) :
  r.bytes = message ∧ n = message.length
  := by
  obtain ⟨bytes, before, hfilled, hlength, hdelivered⟩ := h.filled
  obtain ⟨hbytes, hlength'⟩ := hfilled.returned r rfl
  rw [hbytes, hdelivered, List.length_take, Nat.min_eq_left hn] at hlength'
  constructor
  · rw [hbytes, hdelivered, List.take_of_length_le (by omega)]
  · omega

/-- An iteration which delivers what comes next in the message, or nothing. -/
theorem turn (h : Receives message n (.again r)) (hcount : n + count ≤ message.length)
    (houtcome : poll.outcome.delivered = (message.drop n).take count) :
  Receives message (n + count) (r.turn strategy spinDeadlineNs poll)
  := by
  have hoffset := h.offset_eq (by omega)
  have hbytes := h.length_eq
  obtain ⟨bytes, before, hfilled, hlength, hdelivered⟩ := h.filled
  constructor
  · refine ⟨bytes, before ++ [poll], ?_, hlength, ?_⟩
    · apply hfilled.turn
      rw [ReceiveAll.Fits, houtcome, List.length_take, List.length_drop]
      omega
    · rw [ReceiveAll.delivered_concat, hdelivered, houtcome, List.take_add]
  · intro r' hr'
    apply offset_lt_of_turn hr'

end Receives

/-! ### A message being sent -/

/-- A turn of `send_all` has sent the first `n` of `size` bytes. -/
structure Sends (size n : ℕ) (t : SendTurn) : Prop where
  again : ∀ offset, t = .again offset → offset = n ∧ n < size
  returned : ∀ offset, t = .done offset (.ok ()) → n = size

namespace Sends

variable {bytes : List Byte} {n count : ℕ}

theorem head (hn : n ≤ bytes.length) : Sends bytes.length n (SendAll.head bytes n) := by
  rw [SendAll.head]
  split_ifs with hlt
  · constructor
    · intro offset h
      use (Turn.again.inj h).symm
    · intro offset h
      cases h
  · constructor
    · intro offset h
      cases h
    · intro offset _
      omega

theorem turn_sent (hn : n + count ≤ bytes.length) :
  Sends bytes.length (n + count) (SendAll.turn bytes n (.sent count))
  := by
  rw [SendAll.turn]
  split_ifs
  · apply head hn
  · constructor
    · intro offset h
      cases h
    · intro offset h
      cases h

theorem turn_failed (hn : n ≤ bytes.length) (errno : Sockets.Errno) :
  Sends bytes.length n (SendAll.turn bytes n (.failed errno))
  := by
  rw [SendAll.turn]
  split_ifs
  · apply head hn
  · constructor
    · intro offset h
      cases h
    · intro offset h
      cases h

end Sends

/-! ### The stream of a run -/

namespace TcpSetup

variable (u : TcpSetup)

/-- The message with the number `k`. -/
def message (k : ℕ) : List Byte :=
  header .tcp (UInt32.ofNat k) ++ pattern u.payloadBytes

/-- The messages of the run, one after another. -/
def stream : List Byte :=
  Pipe.blocks u.message u.total

theorem eight_le_payloadBytes : 8 ≤ u.payloadBytes := by
  have hmem := u.payloadBytes_mem
  simp only [payloadSizes, List.mem_cons, List.not_mem_nil, or_false] at hmem
  omega

theorem length_message (k : ℕ) : (u.message k).length = u.payloadBytes := by
  have hle := u.eight_le_payloadBytes
  rw [message, List.length_append, length_header, pattern, List.length_drop, List.length_map,
    List.length_range]
  omega

theorem drop_message (k : ℕ) : (u.message k).drop 8 = pattern u.payloadBytes := by
  apply List.drop_left' (length_header .tcp _)

variable {u} {queue : List Byte} {k n stop start : ℕ}

/-- What a `recv` delivers comes next in the message. -/
theorem carries_recv {queue' : List Byte} {closed : Bool} {answer : StreamAnswer}
    {outcome : RecvOutcome} (h : Pipe.Carries u.stream queue stop (k * u.payloadBytes + n))
    (hk : k < u.total) (hn : n ≤ u.payloadBytes)
    (hrecv : Stream.recv queue closed (u.payloadBytes - n) answer = some (outcome, queue')) :
  ∃ count, n + count ≤ u.payloadBytes
    ∧ outcome.delivered = ((u.message k).drop n).take count
    ∧ Pipe.Carries u.stream queue' stop (k * u.payloadBytes + (n + count))
  := by
  cases answer with
  | deliver count =>
      rw [Stream.recv, Option.ite_none_right_eq_some, Option.some.injEq, Prod.mk.injEq] at hrecv
      obtain ⟨⟨-, hrequested, hqueue⟩, rfl, rfl⟩ := hrecv
      have hle : n + count ≤ u.payloadBytes := by omega
      use count, hle
      constructor
      · have htake := h.take_eq hqueue
        rw [stream, Pipe.take_drop_blocks u.length_message hk hle] at htake
        apply htake
      · rw [← Nat.add_assoc]
        apply h.read hqueue
  | endOfStream =>
      rw [Stream.recv, Option.ite_none_right_eq_some, Option.some.injEq, Prod.mk.injEq] at hrecv
      obtain ⟨-, rfl, rfl⟩ := hrecv
      use 0, hn, List.take_zero.symm
      apply h
  | failed errno =>
      rw [Stream.recv, Option.some.injEq, Prod.mk.injEq] at hrecv
      obtain ⟨rfl, rfl⟩ := hrecv
      use 0, hn, List.take_zero.symm
      apply h

/-- What a `send` takes of a message comes next in the stream. -/
theorem carries_send {queue' : List Byte} {outcome : SendOutcome}
    (h : Pipe.Carries u.stream queue (k * u.payloadBytes + n) start)
    (hk : k < u.total) (hn : n ≤ u.payloadBytes)
    (hsend : Stream.send queue ((u.message k).drop n) outcome = some queue') :
  ∃ count, n + count ≤ u.payloadBytes
    ∧ Sends u.payloadBytes (n + count) (SendAll.turn (u.message k) n outcome)
    ∧ Pipe.Carries u.stream queue' (k * u.payloadBytes + (n + count)) start
  := by
  have hlength := u.length_message k
  cases outcome with
  | sent count =>
      rw [Stream.send, Option.ite_none_right_eq_some, Option.some.injEq, List.length_drop,
        hlength] at hsend
      obtain ⟨hcount, rfl⟩ := hsend
      have hle : n + count ≤ u.payloadBytes := by omega
      use count, hle
      constructor
      · rw [← hlength] at hle ⊢
        apply Sends.turn_sent hle
      · have hchunk : ((u.message k).drop n).take count
            <+: u.stream.drop (k * u.payloadBytes + n) := by
          apply (List.take_prefix count _).trans
          apply Pipe.drop_prefix_blocks u.length_message hk hn
        have hwrite := h.write hchunk
        rw [List.length_take, List.length_drop, hlength, Nat.min_eq_left (by omega),
          Nat.add_assoc] at hwrite
        apply hwrite
  | failed errno =>
      rw [Stream.send, Option.some.injEq] at hsend
      subst hsend
      use 0, hn
      constructor
      · rw [← hlength] at hn ⊢
        apply Sends.turn_failed hn
      · apply h

end TcpSetup

/-! ### The server -/

/-- The exceptions which do not come from a check of the program on what it has received. -/
def TcpFailure.External : TcpFailure → Prop
  | .system _ | .send _ | .receive _ | .nonPositiveSample => True
  | _ => False

namespace TcpServer

variable {u : TcpSetup} {s : TcpServer} {index n : ℕ}

/-- The server has received and sent so much of the stream. -/
def At (u : TcpSetup) (s : TcpServer) (received sent : ℕ) : Prop :=
  match s.pc with
  | .starting => s = initial u ∧ received = 0 ∧ sent = 0
  | .receiving index r =>
      index < u.total ∧ s.messages = UInt64.ofNat index
        ∧ Receives (u.message index) r.offset (.again r)
        ∧ received = index * u.payloadBytes + r.offset ∧ sent = index * u.payloadBytes
  | .sending index offset =>
      index < u.total ∧ s.messages = UInt64.ofNat index ∧ s.message = u.message index
        ∧ offset < u.payloadBytes
        ∧ received = (index + 1) * u.payloadBytes ∧ sent = index * u.payloadBytes + offset
  | .counting index =>
      index < u.total ∧ s.messages = UInt64.ofNat index ∧ s.message = u.message index
        ∧ received = (index + 1) * u.payloadBytes ∧ sent = (index + 1) * u.payloadBytes
  | .leaving | .finished =>
      s.messages = UInt64.ofNat u.total
        ∧ received = u.total * u.payloadBytes ∧ sent = u.total * u.payloadBytes
  | .failing failure | .failed failure => failure.External ∧ sent ≤ received

theorem At.sent_le {received sent : ℕ} (h : s.At u received sent) : sent ≤ received := by
  cases hpc : s.pc with
  | sending index offset =>
      simp only [At, hpc] at h
      rw [Nat.succ_mul] at h
      omega
  | _ =>
      simp only [At, hpc] at h
      omega

/-- A turn of `receive_all`. -/
theorem at_settleReceive {t : ReceiveTurn} (ht : Receives (u.message index) n t)
    (hn : n ≤ u.payloadBytes) (hindex : index < u.total)
    (hmessages : s.messages = UInt64.ofNat index) :
  (s.settleReceive index t).At u (index * u.payloadBytes + n) (index * u.payloadBytes)
  := by
  have hlength := u.length_message index
  have hle := u.eight_le_payloadBytes
  rcases t with r | ⟨r, failure | ⟨⟩⟩
  · obtain rfl := ht.offset_eq (by omega)
    use hindex, hmessages, ht
  · use trivial
    apply Nat.le_add_right
  · obtain ⟨hbytes, rfl⟩ := ht.bytes_eq (by omega)
    refine ⟨hindex, hmessages, hbytes, by omega, ?_, rfl⟩
    rw [hlength, Nat.succ_mul]

/-- A turn of `send_all`. -/
theorem at_settleSend {t : SendTurn} (ht : Sends u.payloadBytes n t) (hn : n ≤ u.payloadBytes)
    (hindex : index < u.total) (hmessages : s.messages = UInt64.ofNat index)
    (hmessage : s.message = u.message index) :
  (s.settleSend index t).At u ((index + 1) * u.payloadBytes) (index * u.payloadBytes + n)
  := by
  rcases t with offset | ⟨offset, failure | ⟨⟩⟩
  · obtain ⟨rfl, hlt⟩ := ht.again offset rfl
    use hindex, hmessages, hmessage, hlt
  · use trivial
    rw [Nat.succ_mul]
    omega
  · obtain rfl := ht.returned offset rfl
    refine ⟨hindex, hmessages, hmessage, rfl, ?_⟩
    rw [Nat.succ_mul]

/-- The head of the loop. -/
theorem at_next (hlength : s.message.length = u.payloadBytes) (hindex : index ≤ u.total)
    (hmessages : s.messages = UInt64.ofNat index) :
  (s.next u index).At u (index * u.payloadBytes) (index * u.payloadBytes)
  := by
  have hle := u.eight_le_payloadBytes
  have hmessage := u.length_message index
  rw [next]
  split_ifs with hlt
  · apply at_settleReceive (n := 0) _ (Nat.zero_le _) hlt hmessages
    apply Receives.start
    · omega
    · omega
  · obtain rfl : index = u.total := by omega
    use hmessages

end TcpServer

/-! ### The client -/

/-- The number of measured messages before a message. -/
def Loop.before : Loop → ℕ → ℕ
  | .warmup, _ => 0
  | .measured, index => index

namespace TcpSetup

variable (u : TcpSetup)

/-- The message is one of its loop. -/
def Within : Loop → ℕ → Prop
  | .warmup, index => index < u.options.warmup
  | .measured, index => index < u.options.samples

/-- The loop comes to the index. -/
def Reaches : Loop → ℕ → Prop
  | .warmup, index => index ≤ u.options.warmup
  | .measured, index => index ≤ u.options.samples

variable {u} {loop : Loop} {index : ℕ}

/-- The run begins with the warm-up. -/
theorem reaches_zero (u : TcpSetup) : u.Reaches .warmup 0 := Nat.zero_le _

theorem Within.reaches (h : u.Within loop index) : u.Reaches loop (index + 1) := by
  cases loop <;> apply h

theorem Within.place_lt (h : u.Within loop index) : u.place loop index < u.total := by
  cases loop with
  | warmup =>
      simp only [Within] at h
      rw [place, total, Options.total]
      omega
  | measured =>
      simp only [Within] at h
      rw [place, total, Options.total]
      omega

/-- The number of a message is its sequence. -/
theorem header_sequence (loop : Loop) (index : ℕ) :
  header .tcp (u.sequence loop index) ++ pattern u.payloadBytes = u.message (u.place loop index)
  := rfl

/-- The sequence of a message is read from it. -/
theorem readSequence_message (loop : Loop) (index : ℕ) :
  readSequence (u.message (u.place loop index)) .tcp = .ok (u.sequence loop index)
  := by
  have hlength := length_header .tcp (u.sequence loop index)
  rw [readSequence_eq_ok, ← header_sequence]
  constructor
  · rw [List.length_append, hlength]
    omega
  · apply List.take_left' hlength

end TcpSetup

namespace TcpClient

variable {u : TcpSetup} {c : TcpClient} {loop : Loop} {index n done : ℕ} {started now : UInt64}

/-- The client has completed `done` measured exchanges. -/
structure Ready (u : TcpSetup) (c : TcpClient) (done : ℕ) : Prop where
  inbound : c.inbound.length = u.payloadBytes
  outbound : c.outbound.length = u.payloadBytes
  template : c.outbound.drop 8 = pattern u.payloadBytes
  latencies : c.latencies.length = u.options.samples
  positive : ∀ x ∈ c.latencies.take done, 0 < x
  checksum : c.checksum = checksumOf u done
  expectedChecksum : c.expectedChecksum = checksumOf u u.options.samples
  validResponses : c.validResponses = UInt64.ofNat done
  duplicates : c.duplicates = 0
  reordered : c.reordered = 0

/-- The client has sent and received so much of the stream, and has not returned. -/
def At (u : TcpSetup) (c : TcpClient) (sent received : ℕ) : Prop :=
  match c.pc with
  | .starting | .started | .startFailed =>
      c = { initial u with pc := c.pc, view := c.view } ∧ sent = 0 ∧ received = 0
  | .writing loop index =>
      u.Within loop index ∧ c.Ready u (loop.before index)
        ∧ sent = u.place loop index * u.payloadBytes
        ∧ received = u.place loop index * u.payloadBytes
  | .sending loop index _ offset =>
      u.Within loop index ∧ c.Ready u (loop.before index)
        ∧ c.outbound = u.message (u.place loop index) ∧ offset < u.payloadBytes
        ∧ sent = u.place loop index * u.payloadBytes + offset
        ∧ received = u.place loop index * u.payloadBytes
  | .receiving loop index _ r =>
      u.Within loop index ∧ c.Ready u (loop.before index)
        ∧ c.outbound = u.message (u.place loop index)
        ∧ Receives (u.message (u.place loop index)) r.offset (.again r)
        ∧ sent = (u.place loop index + 1) * u.payloadBytes
        ∧ received = u.place loop index * u.payloadBytes + r.offset
  | .exchanged loop index _ =>
      u.Within loop index ∧ c.Ready u (loop.before index)
        ∧ c.outbound = u.message (u.place loop index)
        ∧ c.inbound = u.message (u.place loop index)
        ∧ sent = (u.place loop index + 1) * u.payloadBytes
        ∧ received = (u.place loop index + 1) * u.payloadBytes
  | .joining =>
      c.Ready u u.options.samples
        ∧ sent = u.total * u.payloadBytes ∧ received = u.total * u.payloadBytes
  | .returned _ => False
  | .unwinding failure | .rejoining failure | .thrown failure =>
      failure.External ∧ sent ≤ received + u.payloadBytes

/-- No more than one message is sent and not received back. -/
theorem At.sent_le {sent received : ℕ} (h : c.At u sent received) :
  sent ≤ received + u.payloadBytes
  := by
  cases hpc : c.pc with
  | receiving loop index started r =>
      simp only [At, hpc] at h
      obtain ⟨-, -, -, -, rfl, rfl⟩ := h
      rw [Nat.succ_mul]
      omega
  | returned result => simp only [At, hpc] at h
  | _ =>
      simp only [At, hpc] at h
      omega

/-- The heads of the loops. -/
theorem Ready.next (loop : Loop) (index : ℕ) (h : c.Ready u (loop.before index))
    (hindex : u.Reaches loop index) :
  (c.next u loop index).At u (u.place loop index * u.payloadBytes)
    (u.place loop index * u.payloadBytes)
  := by
  cases loop with
  | warmup =>
      simp only [TcpSetup.Reaches] at hindex
      have hsamples := u.options.samples_pos
      rw [TcpClient.next]
      split_ifs with hlt
      · use hlt
        use ⟨h.1, h.2, h.3, h.4, h.5, h.6, h.7, h.8, h.9, h.10⟩
      · obtain rfl : index = u.options.warmup := by omega
        use hsamples
        use ⟨h.1, h.2, h.3, h.4, h.5, h.6, h.7, h.8, h.9, h.10⟩
        use rfl
        rfl
  | measured =>
      simp only [TcpSetup.Reaches] at hindex
      rw [TcpClient.next]
      split_ifs with hlt
      · use hlt
        use ⟨h.1, h.2, h.3, h.4, h.5, h.6, h.7, h.8, h.9, h.10⟩
      · obtain rfl : index = u.options.samples := by omega
        use ⟨h.1, h.2, h.3, h.4, h.5, h.6, h.7, h.8, h.9, h.10⟩
        use rfl
        rfl

/-- The client with its first message and the checksum it expects. -/
def prepared (u : TcpSetup) (c : TcpClient) : TcpClient :=
  { c with
    outbound := u.message 0
    expectedChecksum := checksumOf u u.options.samples }

/-- The beginning of the run. -/
theorem begin_eq (h : c = { initial u with pc := c.pc, view := c.view }) :
  c.begin u = (c.prepared u).next u .warmup 0
  := by
  have hle := u.eight_le_payloadBytes
  have hlength : c.outbound.length = u.payloadBytes := by
    rw [h]
    apply List.length_replicate
  have htotal : ¬u.total > maximumSequence := by
    have hlt := u.options.total_lt
    rw [TcpSetup.total, maximumSequence]
    omega
  rw [begin, initializeMessage_eq (by omega), hlength]
  simp only [if_neg htotal]
  rfl

theorem ready_prepared (h : c = { initial u with pc := c.pc, view := c.view }) :
  (c.prepared u).Ready u 0
  := by
  rw [h]
  constructor
  · apply List.length_replicate
  · apply u.length_message 0
  · apply u.drop_message 0
  · apply List.length_replicate
  · intro x hx
    cases hx
  · rfl
  · rfl
  · rfl
  · rfl
  · rfl

theorem at_begin (h : c = { initial u with pc := c.pc, view := c.view }) :
  (c.begin u).At u 0 0
  := by
  have hnext := (ready_prepared h).next .warmup 0 u.reaches_zero
  rw [TcpSetup.place, Nat.zero_mul] at hnext
  rw [begin_eq h]
  apply hnext

/-- A turn of `receive_all`. -/
theorem at_settleReceive {t : ReceiveTurn} (ht : Receives (u.message (u.place loop index)) n t)
    (hn : n ≤ u.payloadBytes) (hindex : u.Within loop index)
    (hready : c.Ready u (loop.before index))
    (houtbound : c.outbound = u.message (u.place loop index)) :
  (c.settleReceive loop index started t).At u ((u.place loop index + 1) * u.payloadBytes)
    (u.place loop index * u.payloadBytes + n)
  := by
  have hlength := u.length_message (u.place loop index)
  have hle := u.eight_le_payloadBytes
  rcases t with r | ⟨r, failure | ⟨⟩⟩
  · obtain rfl := ht.offset_eq (by omega)
    use hindex, { hready with }, houtbound, ht
  · use trivial
    rw [Nat.succ_mul]
    omega
  · obtain ⟨hbytes, rfl⟩ := ht.bytes_eq (by omega)
    have hinbound : r.bytes.length = u.payloadBytes := by
      rw [hbytes, hlength]
    refine ⟨hindex, { hready with inbound := hinbound }, houtbound, hbytes, rfl, ?_⟩
    rw [hlength, Nat.succ_mul]

/-- A turn of `send_all`. -/
theorem at_settleSend {t : SendTurn} (ht : Sends u.payloadBytes n t) (hn : n ≤ u.payloadBytes)
    (hindex : u.Within loop index) (hready : c.Ready u (loop.before index))
    (houtbound : c.outbound = u.message (u.place loop index)) :
  (c.settleSend loop index started t).At u (u.place loop index * u.payloadBytes + n)
    (u.place loop index * u.payloadBytes)
  := by
  have hlength := u.length_message (u.place loop index)
  have hle := u.eight_le_payloadBytes
  rcases t with offset | ⟨offset, failure | ⟨⟩⟩
  · obtain ⟨rfl, hlt⟩ := ht.again offset rfl
    use hindex, { hready with }, houtbound, hlt
  · use trivial
    omega
  · obtain rfl := ht.returned offset rfl
    rw [← Nat.succ_mul]
    apply at_settleReceive (n := 0) _ (Nat.zero_le _) hindex hready houtbound
    apply Receives.start
    · rw [hready.inbound, hlength]
    · omega

/-- A message is written over the one before. -/
theorem write_eq (hready : c.Ready u (loop.before index)) :
  c.write u loop index now
    = { c with outbound := u.message (u.place loop index) }.settleSend loop index now (.again 0)
  := by
  have hle := u.eight_le_payloadBytes
  have houtbound := hready.outbound
  have hlength := u.length_message (u.place loop index)
  rw [write, writeHeader_eq (by omega), hready.template, TcpSetup.header_sequence]
  simp only
  rw [SendAll.head, if_pos (by omega)]

theorem at_write (hindex : u.Within loop index) (hready : c.Ready u (loop.before index)) :
  (c.write u loop index now).At u (u.place loop index * u.payloadBytes)
    (u.place loop index * u.payloadBytes)
  := by
  have hle := u.eight_le_payloadBytes
  have hlength := u.length_message (u.place loop index)
  have hwritten : { c with outbound := u.message (u.place loop index) }.Ready u
      (loop.before index) :=
    { hready with
      outbound := hlength
      template := u.drop_message _ }
  rw [write_eq hready]
  refine ⟨hindex, { hwritten with }, rfl, ?_, rfl, rfl⟩
  omega

/-- What the warm-up loop receives passes its test. -/
theorem examineWarmup_eq (houtbound : c.outbound = u.message (u.place .warmup index))
    (hinbound : c.inbound = u.message (u.place .warmup index)) :
  c.examineWarmup u index = c.next u .warmup (index + 1)
  := by
  have hread := u.readSequence_message .warmup index
  rw [examineWarmup, if_neg (by rw [hinbound, houtbound]; apply not_not.mpr rfl), hinbound, hread]
  simp only
  rw [if_neg (not_not.mpr rfl)]

/-- The client with a sample more. -/
def sample (u : TcpSetup) (c : TcpClient) (index : ℕ) (x : UInt64) : TcpClient :=
  { c with
    latencies := c.latencies.set index x
    checksum := updateChecksum c.checksum (u.sequence .measured index) u.payloadBytes .tcp
    validResponses := c.validResponses + 1 }

/-- A sample is taken. -/
theorem Ready.withSample (h : c.Ready u index) (hindex : index < u.options.samples) {x : UInt64}
    (hx : 0 < x) :
  (c.sample u index x).Ready u (index + 1)
  := by
  have hlatencies := h.latencies
  constructor
  · apply h.inbound
  · apply h.outbound
  · apply h.template
  · rw [sample, List.length_set, hlatencies]
  · intro y hy
    simp only [sample] at hy
    rw [List.take_add_one, List.take_set_of_le le_rfl, List.mem_append,
      List.getElem?_set_self (by omega), Option.mem_toList] at hy
    rcases hy with hy | hy
    · apply h.positive y hy
    · obtain rfl := Option.some.inj hy
      apply hx
  · rw [checksumOf, List.range_succ, List.foldl_concat, ← checksumOf, sample, h.checksum]
  · apply h.expectedChecksum
  · rw [sample, h.validResponses, UInt64.ofNat_add]
    rfl
  · apply h.duplicates
  · apply h.reordered

/-- What the measured loop receives passes its tests. -/
theorem examineMeasured_eq {finished : UInt64} (hlt : started < finished)
    (houtbound : c.outbound = u.message (u.place .measured index))
    (hinbound : c.inbound = u.message (u.place .measured index)) :
  c.examineMeasured u index started finished
    = (c.sample u index (finished - started)).next u .measured (index + 1)
  := by
  have hread := u.readSequence_message .measured index
  have hself : ¬u.sequence .measured index < u.sequence .measured index := UInt32.lt_irrefl _
  have hsame : c.inbound = c.outbound := by
    rw [hinbound, houtbound]
  rw [← hinbound] at hread
  rw [examineMeasured, if_neg (UInt64.not_le.mpr hlt)]
  simp only [hread, if_neg hself, gt_iff_lt, if_neg (not_not.mpr hsame)]
  rfl

theorem sub_pos {started finished : UInt64} (hlt : started < finished) :
  0 < finished - started
  := by
  have hle := UInt64.toNat_sub_of_le _ _ (UInt64.le_of_lt hlt)
  rw [UInt64.lt_iff_toNat_lt] at hlt ⊢
  change 0 < _
  omega

/-- Whatever the client receives passes its tests, but for the clock. -/
theorem at_examine {finished : UInt64} (hindex : u.Within loop index)
    (hready : c.Ready u (loop.before index))
    (houtbound : c.outbound = u.message (u.place loop index))
    (hinbound : c.inbound = u.message (u.place loop index)) :
  (c.examine u index started finished loop).At u ((u.place loop index + 1) * u.payloadBytes)
    ((u.place loop index + 1) * u.payloadBytes)
  := by
  cases loop with
  | warmup =>
      rw [examine, examineWarmup_eq houtbound hinbound]
      apply hready.next .warmup (index + 1) hindex.reaches
  | measured =>
      rw [examine]
      by_cases hlt : started < finished
      · rw [examineMeasured_eq hlt houtbound hinbound]
        apply (hready.withSample hindex (sub_pos hlt)).next .measured (index + 1) hindex.reaches
      · rw [examineMeasured, if_pos (UInt64.not_lt.mp hlt)]
        use trivial
        omega

end TcpClient

end SocketLatency
