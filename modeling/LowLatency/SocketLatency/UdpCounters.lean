import LowLatency.Library.FirstArrivals
import LowLatency.Library.Transition
import LowLatency.SocketLatency.UdpClient
import Mathlib.Data.Nat.Basic

/-!
# The anomaly counters of a UDP run

What the counters of the two ends say about the datagrams that were received. The datagrams are
any list: on the server in the order of its loop, on the client over all its attempts.
-/

namespace SocketLatency

open FirstArrivals
open Sockets (Byte)

variable {Address : Type}

/-! ### Sequences that arrive -/

namespace Arrivals

/-- One end records a measured sequence. -/
def observe (a : Arrivals) (warmup : ℕ) (observed : UInt32) : Arrivals :=
  if Flags.isRaised a.seen (observed.toNat - warmup) then
    { a with duplicates := a.duplicates + 1 }
  else a.record (observed.toNat - warmup) observed

/-- What is recorded of the measured `sequences` that have arrived. The counters are those of a
machine word. -/
structure Reports (warmup samples : ℕ) (sequences : List ℕ) (a : Arrivals) : Prop where
  length : a.seen.length = samples
  range : ∀ n ∈ sequences, warmup ≤ n ∧ n < warmup + samples
  seen : ∀ n, warmup ≤ n → (Flags.isRaised a.seen (n - warmup) = true ↔ n ∈ sequences)
  highWater : IsHighWater (firsts sequences) (a.highWater.map UInt32.toNat)
  duplicates : a.duplicates = UInt64.ofNat (sequences.length - (firsts sequences).length)
  reordered : a.reordered = UInt64.ofNat (overtaken (firsts sequences))

variable {warmup samples : ℕ} {sequences : List ℕ} {a : Arrivals} {observed : UInt32}

theorem reports_initial : Reports warmup samples [] (initial samples) := by
  constructor
  · apply List.length_replicate
  · intro n hn
    cases hn
  · intro n _
    simp [Flags.isRaised, initial, List.getD_eq_getElem?_getD, List.getElem?_replicate]
    split_ifs <;> simp
  · rfl
  · rfl
  · rfl

/-- The high-water mark of the numbers. -/
theorem highWater_record {index : ℕ} :
  (a.record index observed).highWater.map UInt32.toNat
    = if (a.highWater.map UInt32.toNat).all (· < observed.toNat) then some observed.toNat
      else a.highWater.map UInt32.toNat
  := by
  rw [record]
  cases a.highWater with
  | none => rfl
  | some mark =>
      simp only [Option.all_some, Option.map_some, gt_iff_lt, UInt32.lt_iff_toNat_lt]
      split_ifs <;> rfl

theorem reordered_record {index : ℕ} :
  (a.record index observed).reordered
    = a.reordered + if (a.highWater.map UInt32.toNat).any (observed.toNat < ·) then 1 else 0
  := by
  rw [record]
  cases a.highWater with
  | none => simp
  | some mark =>
      simp only [Option.any_some, Option.map_some, UInt32.lt_iff_toNat_lt]
      split_ifs <;> simp

/-- One more sequence arrives. -/
theorem Reports.observe (h : Reports warmup samples sequences a) (hwarmup : warmup ≤ observed.toNat)
    (hlt : observed.toNat < warmup + samples) :
  Reports warmup samples (sequences ++ [observed.toNat]) (a.observe warmup observed)
  := by
  have hindex : observed.toNat - warmup < a.seen.length := by
    rw [h.length]
    omega
  have hrange : ∀ n ∈ sequences ++ [observed.toNat], warmup ≤ n ∧ n < warmup + samples := by
    intro n hn
    rw [List.mem_append, List.mem_singleton] at hn
    rcases hn with hn | rfl
    · apply h.range n hn
    · use hwarmup
  have hlength := length_firsts_le sequences
  rw [Arrivals.observe]
  by_cases hmem : observed.toNat ∈ sequences
  · rw [if_pos ((h.seen _ hwarmup).mpr hmem)]
    have hfirsts : firsts (sequences ++ [observed.toNat]) = firsts sequences := by
      rw [firsts_concat, if_pos (mem_firsts.mpr hmem)]
    constructor
    · apply h.length
    · apply hrange
    · intro n hn
      rw [h.seen n hn, List.mem_append, List.mem_singleton]
      constructor
      · intro hn'
        left
        apply hn'
      · rintro (hn' | rfl)
        · apply hn'
        · apply hmem
    · rw [hfirsts]
      apply h.highWater
    · rw [hfirsts, List.length_append, List.length_singleton, Nat.sub_add_comm hlength,
        UInt64.ofNat_add, ← h.duplicates]
      rfl
    · rw [hfirsts]
      apply h.reordered
  · rw [if_neg (fun hseen => hmem ((h.seen _ hwarmup).mp hseen))]
    have hfirsts : firsts (sequences ++ [observed.toNat])
        = firsts sequences ++ [observed.toNat] := by
      rw [firsts_concat, if_neg (fun hmem' => hmem (mem_firsts.mp hmem'))]
    constructor
    · rw [record, Flags.length_raise, h.length]
    · apply hrange
    · intro n hn
      rw [record, Flags.isRaised_raise hindex, h.seen n hn, List.mem_append, List.mem_singleton]
      constructor
      · rintro (hn' | hn')
        · right
          omega
        · left
          apply hn'
      · rintro (hn' | rfl)
        · right
          apply hn'
        · left
          rfl
    · rw [hfirsts, highWater_record]
      apply h.highWater.concat
    · rw [hfirsts, List.length_append, List.length_append, List.length_singleton,
        Nat.add_sub_add_right, ← h.duplicates]
      rfl
    · rw [hfirsts, overtaken_concat, ← h.highWater.any, reordered_record, h.reordered,
        UInt64.ofNat_add]
      split_ifs <;> rfl

end Arrivals

/-! ### What a datagram is -/

/-- What one end takes a datagram for: too long, not a message of the run, or the message of a
sequence. -/
inductive DatagramKind where
  | truncated
  | invalid
  | message (sequence : ℕ)
  deriving DecidableEq

def DatagramKind.isMessage : DatagramKind → Bool
  | .message _ => true
  | _ => false

/-- The five classes of datagrams. -/
inductive DatagramClass where
  | truncated
  | invalid
  | warmup
  | duplicate
  | first
  deriving DecidableEq

/-- The class of a datagram that arrives after those with the measured `sequences`. -/
def DatagramKind.classify (warmup : ℕ) (sequences : List ℕ) : DatagramKind → DatagramClass
  | .truncated => .truncated
  | .invalid => .invalid
  | .message sequence =>
      if sequence < warmup then .warmup
      else if sequence ∈ sequences then .duplicate
      else .first

/-- The measured sequence of a datagram. -/
def DatagramKind.measured? (warmup : ℕ) : DatagramKind → Option ℕ
  | .message sequence => if sequence < warmup then none else some sequence
  | _ => none

/-- The measured sequences of datagrams, in the order of their arrival. -/
def measured (warmup : ℕ) (kinds : List DatagramKind) : List ℕ :=
  kinds.filterMap (DatagramKind.measured? warmup)

/-- The classes of datagrams in the order of their arrival. -/
def classes (warmup : ℕ) (kinds : List DatagramKind) : List DatagramClass :=
  kinds.zipIdx.map fun (kind, i) => kind.classify warmup (measured warmup (kinds.take i))

section Classes

variable {warmup : ℕ} {kinds : List DatagramKind} {kind : DatagramKind}

theorem measured_concat :
  measured warmup (kinds ++ [kind])
    = measured warmup kinds ++ (kind.measured? warmup).toList
  := by
  rw [measured, List.filterMap_append]
  cases h : kind.measured? warmup with
  | none => simp [measured, h]
  | some sequence => simp [measured, h]

theorem classes_concat :
  classes warmup (kinds ++ [kind])
    = classes warmup kinds ++ [kind.classify warmup (measured warmup kinds)]
  := by
  rw [classes, List.zipIdx_append, List.map_append]
  congr 1
  · apply List.map_congr_left
    rintro ⟨kind', i⟩ hkind
    have hi : i < kinds.length := by
      have := List.snd_lt_of_mem_zipIdx hkind
      omega
    simp only [List.take_append_of_le_length (Nat.le_of_lt hi)]
  · simp

section Map

variable {α : Type} (kindOf : α → DatagramKind) (ds : List α) (d : α)

theorem measured_map_concat :
  measured warmup ((ds ++ [d]).map kindOf)
    = measured warmup (ds.map kindOf) ++ ((kindOf d).measured? warmup).toList
  := by
  rw [List.map_append, List.map_singleton, measured_concat]

theorem classes_map_concat :
  classes warmup ((ds ++ [d]).map kindOf)
    = classes warmup (ds.map kindOf)
      ++ [(kindOf d).classify warmup (measured warmup (ds.map kindOf))]
  := by
  rw [List.map_append, List.map_singleton, classes_concat]

end Map

/-- A datagram that is not measured leaves what is reported of the arrivals. -/
theorem Arrivals.Reports.unmeasured {samples : ℕ} {sequences : List ℕ} {a : Arrivals}
    (h : a.Reports warmup samples sequences) (hkind : kind.measured? warmup = none) :
  a.Reports warmup samples (sequences ++ (kind.measured? warmup).toList)
  := by
  rw [hkind, Option.toList_none, List.append_nil]
  apply h

/-- The duplicates and the first arrivals among the measured sequences. -/
theorem count_classes (warmup : ℕ) (kinds : List DatagramKind) :
  (classes warmup kinds).count .first = (firsts (measured warmup kinds)).length
    ∧ (classes warmup kinds).count .duplicate
      = (measured warmup kinds).length - (firsts (measured warmup kinds)).length
  := by
  induction kinds using List.reverseRecOn with
  | nil => exact ⟨rfl, rfl⟩
  | append_singleton kinds kind ih =>
      obtain ⟨hfirst, hduplicate⟩ := ih
      have hle := length_firsts_le (measured warmup kinds)
      rw [classes_concat, measured_concat, List.count_append, List.count_append, hfirst,
        hduplicate]
      cases kind with
      | truncated => simp [DatagramKind.classify, DatagramKind.measured?]
      | invalid => simp [DatagramKind.classify, DatagramKind.measured?]
      | message sequence =>
          rw [DatagramKind.classify, DatagramKind.measured?]
          by_cases hwarmup : sequence < warmup
          · simp [hwarmup]
          · rw [if_neg hwarmup, if_neg hwarmup, Option.toList_some, firsts_concat,
              List.length_append, List.length_singleton]
            simp only [mem_firsts]
            split_ifs
            · rw [List.count_singleton_self, List.count_singleton]
              use rfl
              omega
            · rw [List.count_singleton_self, List.count_singleton, List.length_append,
                List.length_singleton]
              use rfl
              simp

end Classes

/-- A counter after one more class. -/
theorem ofNat_count_concat (classes : List DatagramClass) (c c' : DatagramClass) :
  UInt64.ofNat ((classes ++ [c]).count c')
    = UInt64.ofNat (classes.count c') + if c = c' then 1 else 0
  := by
  rw [List.count_append, List.count_singleton, UInt64.ofNat_add]
  congr 1
  by_cases h : c = c'
  · simp [h]
  · simp [h]

/-! ### The server -/

/-- What the server takes a datagram for. -/
def UdpSetup.request (u : UdpSetup Address) (d : Datagram Address) : DatagramKind :=
  if d.bytes.length > u.payloadBytes then .truncated
  else if d.bytes.length ≠ u.payloadBytes then .invalid
  else
    match readSequence d.bytes .udp with
    | .error _ => .invalid
    | .ok observed =>
        if observed.toNat ≥ u.options.total then .invalid else .message observed.toNat

/-- The echo of a datagram. -/
def UdpSetup.echo (u : UdpSetup Address) (d : Datagram Address) : Datagram Address where
  source := u.serverAddress
  destination := sendProfileDestination u.options.profile u.clientAddress d.source
  bytes := d.bytes

namespace Server

/-- A turn of the loop of the server on a datagram, and what it sends. -/
def turn (u : UdpSetup Address) (s : Server Address) (d : Datagram Address) :
    Server Address × List (Datagram Address) :=
  let s := s.receive u d
  match s.pc with
  | .sending observed peer => (s.count u observed, [s.echo u peer])
  | _ => (s, [])

/-- The loop of the server over the datagrams it receives, whose echoes do not fail, and what it
sends. -/
def serve (u : UdpSetup Address) (s : Server Address) :
    List (Datagram Address) → Server Address × List (Datagram Address)
  | [] => (s, [])
  | d :: ds =>
      let (s, echo) := s.turn u d
      let (s, echoes) := s.serve u ds
      (s, echo ++ echoes)

/-- What the server reports of the datagrams it has received. -/
structure Reports (u : UdpSetup Address) (ds : List (Datagram Address)) (s : Server Address) :
    Prop where
  message : s.message.length = u.payloadBytes
  arrivals : s.arrivals.Reports u.options.warmup u.options.samples
    (measured u.options.warmup (ds.map u.request))
  truncated : s.report.truncated
    = UInt64.ofNat ((classes u.options.warmup (ds.map u.request)).count .truncated)
  invalid : s.report.invalid
    = UInt64.ofNat ((classes u.options.warmup (ds.map u.request)).count .invalid)
  messages : s.report.messages = UInt64.ofNat (ds.countP fun d => (u.request d).isMessage)
  unique : s.report.measuredUniqueRequests
    = UInt64.ofNat ((classes u.options.warmup (ds.map u.request)).count .first)

variable {u : UdpSetup Address} {s : Server Address} {d : Datagram Address}
  {ds : List (Datagram Address)}

theorem reports_initial : Reports u [] (initial u) := by
  constructor
  · apply List.length_replicate
  · apply Arrivals.reports_initial
  · rfl
  · rfl
  · rfl
  · rfl

/-- What the server does with a datagram depends on what it takes it for. -/
theorem receive_cases (hmessage : s.message.length = u.payloadBytes) (d : Datagram Address) :
  (u.request d = .truncated
      ∧ s.receive u d = { s with message := (recvmsg s.message d).2 }.rejectTruncated)
    ∨ (u.request d = .invalid
      ∧ s.receive u d = { s with message := (recvmsg s.message d).2 }.rejectInvalid)
    ∨ ∃ observed, u.request d = .message observed.toNat ∧ observed.toNat < u.options.total
      ∧ d.bytes.length = u.payloadBytes
      ∧ s.receive u d = { s with message := d.bytes, pc := .sending observed d.source }
  := by
  have hlength : (recvmsg s.message d).2.length = u.payloadBytes := by
    rw [length_recvmsg, hmessage]
  have hflag : (recvmsg s.message d).1.truncated = decide (u.payloadBytes < d.bytes.length) := by
    rw [← hmessage]
    rfl
  have hbytes : (recvmsg s.message d).1.bytes = d.bytes.length := rfl
  simp only [UdpSetup.request, Server.receive, examine, hlength, hbytes, hflag,
    decide_eq_true_iff, gt_iff_lt, or_self]
  by_cases htruncated : u.payloadBytes < d.bytes.length
  · left
    rw [if_pos htruncated, if_pos htruncated]
    exact ⟨rfl, rfl⟩
  right
  rw [if_neg htruncated, if_neg htruncated]
  by_cases hsize : d.bytes.length = u.payloadBytes
  · rw [if_neg (not_not.mpr hsize), if_neg (not_not.mpr hsize)]
    have hcontents : (recvmsg s.message d).2 = d.bytes := by
      apply recvmsg_eq
      rw [hbytes, hsize, hmessage]
    rw [hcontents]
    cases hread : readSequence d.bytes .udp with
    | error message =>
        left
        exact ⟨rfl, rfl⟩
    | ok observed =>
        by_cases htotal : observed.toNat ≥ u.options.total
        · left
          simp only [if_pos htotal, true_and]
        · right
          use observed
          simp only [if_neg htotal, true_and]
          exact ⟨Nat.lt_of_not_le htotal, hsize, rfl⟩
  · left
    rw [if_pos hsize, if_pos hsize]
    exact ⟨rfl, rfl⟩

/-- What the loop records after an echo. -/
theorem arrivals_count (observed : UInt32) :
  (s.count u observed).arrivals
    = if observed.toNat < u.options.warmup then s.arrivals
      else s.arrivals.observe u.options.warmup observed
  := by
  simp only [Server.count, Arrivals.observe]
  split_ifs <;> rfl

/-- What the loop counts after an echo. -/
theorem unique_count (observed : UInt32) :
  (s.count u observed).report.measuredUniqueRequests
    = s.report.measuredUniqueRequests
      + if observed.toNat < u.options.warmup then 0
        else if Flags.isRaised s.arrivals.seen (observed.toNat - u.options.warmup) then 0
        else 1
  := by
  simp only [Server.count]
  split_ifs <;> simp

theorem rejected_count (observed : UInt32) :
  (s.count u observed).report.truncated = s.report.truncated
    ∧ (s.count u observed).report.invalid = s.report.invalid
    ∧ (s.count u observed).report.messages = s.report.messages + 1
    ∧ (s.count u observed).message = s.message
  := by
  simp only [Server.count]
  split_ifs <;> exact ⟨rfl, rfl, rfl, rfl⟩

/-- One more datagram is reported by its class. -/
theorem Reports.concat {s' : Server Address} {c : DatagramClass} (h : Reports u ds s)
    (hc : (u.request d).classify u.options.warmup
      (measured u.options.warmup (ds.map u.request)) = c)
    (hmessage : s'.message.length = u.payloadBytes)
    (harrivals : s'.arrivals.Reports u.options.warmup u.options.samples
      (measured u.options.warmup (ds.map u.request)
        ++ ((u.request d).measured? u.options.warmup).toList))
    (htruncated : s'.report.truncated = s.report.truncated + if c = .truncated then 1 else 0)
    (hinvalid : s'.report.invalid = s.report.invalid + if c = .invalid then 1 else 0)
    (hmessages : s'.report.messages
      = s.report.messages + if (u.request d).isMessage then 1 else 0)
    (hunique : s'.report.measuredUniqueRequests
      = s.report.measuredUniqueRequests + if c = .first then 1 else 0) :
  Reports u (ds ++ [d]) s'
  := by
  have hclasses : classes u.options.warmup ((ds ++ [d]).map u.request)
      = classes u.options.warmup (ds.map u.request) ++ [c] := by
    rw [classes_map_concat, hc]
  constructor
  · apply hmessage
  · rw [measured_map_concat]
    apply harrivals
  · rw [hclasses, ofNat_count_concat, ← h.truncated, htruncated]
  · rw [hclasses, ofNat_count_concat, ← h.invalid, hinvalid]
  · rw [List.countP_append, List.countP_singleton, UInt64.ofNat_add, ← h.messages, hmessages]
    split_ifs <;> rfl
  · rw [hclasses, ofNat_count_concat, ← h.unique, hunique]

/-- What a turn of the loop counts and sends. -/
theorem Reports.turn (h : Reports u ds s) (d : Datagram Address) :
  Reports u (ds ++ [d]) (s.turn u d).1
    ∧ (s.turn u d).2 = if (u.request d).isMessage then [u.echo d] else []
  := by
  have hlength : (recvmsg s.message d).2.length = u.payloadBytes := by
    rw [length_recvmsg, h.message]
  rcases receive_cases h.message d with ⟨hkind, hreceive⟩ | ⟨hkind, hreceive⟩
    | ⟨observed, hkind, htotal, hsize, hreceive⟩
  · have hturn : s.turn u d
        = ({ s with message := (recvmsg s.message d).2 }.rejectTruncated, []) := by
      rw [Server.turn, hreceive]
      rfl
    rw [hturn, hkind]
    constructor
    · apply h.concat (c := .truncated)
      · rw [hkind]
        rfl
      · apply hlength
      · apply h.arrivals.unmeasured
        rw [hkind]
        rfl
      · rfl
      · simp [rejectTruncated]
      · rw [hkind]
        simp [DatagramKind.isMessage, rejectTruncated]
      · simp [rejectTruncated]
    · rfl
  · have hturn : s.turn u d
        = ({ s with message := (recvmsg s.message d).2 }.rejectInvalid, []) := by
      rw [Server.turn, hreceive]
      rfl
    rw [hturn, hkind]
    constructor
    · apply h.concat (c := .invalid)
      · rw [hkind]
        rfl
      · apply hlength
      · apply h.arrivals.unmeasured
        rw [hkind]
        rfl
      · simp [rejectInvalid]
      · rfl
      · rw [hkind]
        simp [DatagramKind.isMessage, rejectInvalid]
      · simp [rejectInvalid]
    · rfl
  · have hturn : s.turn u d
        = ({ s with message := d.bytes, pc := .sending observed d.source }.count u observed,
            [u.echo d]) := by
      rw [Server.turn, hreceive]
      rfl
    rw [hturn, hkind]
    constructor
    · obtain ⟨htruncated, hinvalid, hmessages, hmessage⟩ := rejected_count (u := u)
        (s := { s with message := d.bytes, pc := .sending observed d.source }) observed
      have hclass : (u.request d).classify u.options.warmup
            (measured u.options.warmup (ds.map u.request))
          = if observed.toNat < u.options.warmup then .warmup
            else if Flags.isRaised s.arrivals.seen (observed.toNat - u.options.warmup)
            then .duplicate else .first := by
        rw [hkind, DatagramKind.classify]
        split_ifs with hwarmup hmem hseen hseen
        · rfl
        · rfl
        · cases hseen ((h.arrivals.seen _ (by omega)).mpr hmem)
        · cases hmem ((h.arrivals.seen _ (by omega)).mp hseen)
        · rfl
      apply h.concat hclass
      · rw [hmessage, hsize]
      · rw [hkind, arrivals_count, DatagramKind.measured?]
        split_ifs with hwarmup
        · simpa using h.arrivals
        · apply h.arrivals.observe (by omega) htotal
      · rw [htruncated]
        split_ifs <;> simp_all
      · rw [hinvalid]
        split_ifs <;> simp_all
      · rw [hmessages, hkind]
        rfl
      · rw [unique_count]
        split_ifs <;> simp_all
    · rfl

/-- What the loop counts and sends. -/
theorem Reports.serve (h : Reports u ds s) (ds' : List (Datagram Address)) :
  Reports u (ds ++ ds') (s.serve u ds').1
    ∧ (s.serve u ds').2 = (ds'.filter fun d => (u.request d).isMessage).map u.echo
  := by
  induction ds' generalizing ds s with
  | nil =>
      rw [List.append_nil]
      exact ⟨h, rfl⟩
  | cons d ds' ih =>
      obtain ⟨hreports, hecho⟩ := h.turn d
      obtain ⟨hreports', hechoes⟩ := ih hreports
      rw [List.append_assoc, List.singleton_append] at hreports'
      use hreports'
      rw [Server.serve]
      simp only [hecho, hechoes]
      rw [List.filter_cons]
      split_ifs <;> rfl

end Server

end SocketLatency
