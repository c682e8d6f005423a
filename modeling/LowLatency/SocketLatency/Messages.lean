import LowLatency.Library.Raising
import LowLatency.SocketLatency.UdpClientCounters

/-!
# Messages and templates

Reading a header undoes writing it. The client keeps two templates, one it sends and one it
compares responses with, and rewrites their headers again and again; they differ in nothing but
the header written last.
-/

namespace SocketLatency

open Sockets (Byte)

variable {bytes inbound : List Byte} {selectedProtocol expectedProtocol : Protocol}
  {sequence : UInt32} {sequences : List UInt32}

/-! ### Network order -/

theorem fromNetwork_concat (bytes : List Byte) (byte : Byte) :
  fromNetwork (bytes ++ [byte]) = fromNetwork bytes * 256 + byte.toNat
  := List.foldl_concat _ _ _ _

/-- Bytes are determined by their number and the number they stand for. -/
theorem fromNetwork_inj {bytes bytes' : List Byte} (hlength : bytes.length = bytes'.length)
    (h : fromNetwork bytes = fromNetwork bytes') :
  bytes = bytes'
  := by
  induction bytes using List.reverseRecOn generalizing bytes' with
  | nil => rw [List.eq_nil_of_length_eq_zero hlength.symm]
  | append_singleton bytes byte ih =>
      cases bytes' using List.reverseRecOn with
      | nil => simp at hlength
      | append_singleton bytes' byte' =>
          rw [fromNetwork_concat, fromNetwork_concat] at h
          have hbyte := byte.toNat_lt
          have hbyte' := byte'.toNat_lt
          have hlast : byte = byte' := UInt8.toNat_inj.mp (by omega)
          have hfront : bytes = bytes' := by
            apply ih
            · simpa using hlength
            · omega
          rw [hfront, hlast]

theorem fromNetwork_toNetwork16 (x : UInt16) :
  fromNetwork (toNetwork16 x) = x.toNat
  := by
  have hlt := x.toNat_lt
  simp only [toNetwork16, fromNetwork, List.foldl_cons, List.foldl_nil, UInt16.toNat_toUInt8,
    UInt16.toNat_shiftRight, Nat.shiftRight_eq_div_pow]
  change (0 * 256 + x.toNat / 2 ^ 8 % 2 ^ 8) * 256 + x.toNat % 2 ^ 8 = x.toNat
  omega

theorem fromNetwork_toNetwork32 (x : UInt32) :
  fromNetwork (toNetwork32 x) = x.toNat
  := by
  have hlt := x.toNat_lt
  simp only [toNetwork32, fromNetwork, List.foldl_cons, List.foldl_nil, UInt32.toNat_toUInt8,
    UInt32.toNat_shiftRight, Nat.shiftRight_eq_div_pow]
  change (((0 * 256 + x.toNat / 2 ^ 24 % 2 ^ 8) * 256 + x.toNat / 2 ^ 16 % 2 ^ 8) * 256
    + x.toNat / 2 ^ 8 % 2 ^ 8) * 256 + x.toNat % 2 ^ 8 = x.toNat
  omega

/-- Four bytes are those of the word they stand for. -/
theorem toNetwork32_fromNetwork (a b c d : Byte) :
  toNetwork32 (UInt32.ofNat (fromNetwork [a, b, c, d])) = [a, b, c, d]
  := by
  apply fromNetwork_inj
  · rfl
  · have ha := a.toNat_lt
    have hb := b.toNat_lt
    have hc := c.toNat_lt
    have hd := d.toNat_lt
    rw [fromNetwork_toNetwork32, UInt32.toNat_ofNat']
    apply Nat.mod_eq_of_lt
    simp only [fromNetwork, List.foldl_cons, List.foldl_nil]
    omega

/-! ### Headers -/

/-- A header is read exactly from the bytes that are written for it. -/
theorem readSequence_eq_ok :
  readSequence bytes expectedProtocol = .ok sequence
    ↔ 8 ≤ bytes.length ∧ bytes.take 8 = header expectedProtocol sequence
  := by
  rcases bytes with _ | ⟨b₀, _ | ⟨b₁, _ | ⟨b₂, _ | ⟨b₃, _ | ⟨b₄, _ | ⟨b₅, _ | ⟨b₆, _ | ⟨b₇, rest⟩⟩⟩⟩⟩⟩⟩⟩
  case cons.cons.cons.cons.cons.cons.cons.cons =>
    have hlength : ¬(b₀ :: b₁ :: b₂ :: b₃ :: b₄ :: b₅ :: b₆ :: b₇ :: rest).length < 8 := by
      simp
    have hmagic : fromNetwork [b₀, b₁] = messageMagic.toNat
        ↔ [b₀, b₁] = toNetwork16 messageMagic := by
      constructor
      · intro h
        apply fromNetwork_inj
        · rfl
        · rw [fromNetwork_toNetwork16]
          apply h
      · intro h
        rw [h, fromNetwork_toNetwork16]
    have hsequence : UInt32.ofNat (fromNetwork [b₄, b₅, b₆, b₇]) = sequence
        ↔ [b₄, b₅, b₆, b₇] = toNetwork32 sequence := by
      constructor
      · rintro rfl
        rw [toNetwork32_fromNetwork]
      · intro h
        rw [h, fromNetwork_toNetwork32, UInt32.ofNat_toNat]
    have hheader : [b₀, b₁, b₂, b₃, b₄, b₅, b₆, b₇] = header expectedProtocol sequence
        ↔ [b₀, b₁] = toNetwork16 messageMagic ∧ b₂ = messageVersion
          ∧ b₃ = expectedProtocol.code ∧ [b₄, b₅, b₆, b₇] = toNetwork32 sequence := by
      simp only [header, toNetwork16, toNetwork32, List.cons_append, List.nil_append,
        List.cons.injEq, and_true, and_assoc]
    rw [readSequence, if_neg hlength]
    simp only [List.take_succ_cons, List.take_zero, List.drop_succ_cons, List.drop_zero,
      List.getD_cons_succ, List.getD_cons_zero]
    rw [hheader, ← hmagic, ← hsequence]
    split_ifs with hinvalid
    · constructor
      · intro h
        cases h
      · rintro ⟨-, hfront, hversion, hprotocol, -⟩
        simp [hfront, hversion, hprotocol] at hinvalid
    · simp only [not_or, ne_eq, not_not] at hinvalid
      obtain ⟨hfront, hversion, hprotocol⟩ := hinvalid
      simp only [List.length_cons, Except.ok.injEq, hfront, hversion, hprotocol, true_and]
      simp
  all_goals simp [readSequence]

/-- The bytes begin with those that are written for a sequence. -/
def HasHeader (bytes : List Byte) (selectedProtocol : Protocol) (sequence : UInt32) : Prop :=
  8 ≤ bytes.length ∧ ∀ buffer written, writeHeader buffer selectedProtocol sequence = .ok written →
    bytes.take 8 = written.take 8

/-- What is written begins with the header and goes on as before. -/
theorem of_writeHeader {written : List Byte}
    (h : writeHeader bytes selectedProtocol sequence = .ok written) :
  8 ≤ bytes.length ∧ written = header selectedProtocol sequence ++ bytes.drop 8
  := by
  have hle : 8 ≤ bytes.length := by
    by_contra hlt
    rw [writeHeader, if_pos (by omega)] at h
    cases h
  rw [writeHeader_eq hle] at h
  use hle, (Except.ok.inj h).symm

theorem hasHeader_iff :
  HasHeader bytes selectedProtocol sequence
    ↔ 8 ≤ bytes.length ∧ bytes.take 8 = header selectedProtocol sequence
  := by
  constructor
  · rintro ⟨hle, h⟩
    use hle
    rw [h bytes _ (writeHeader_eq hle selectedProtocol sequence)]
    apply List.take_left' (length_header selectedProtocol sequence)
  · rintro ⟨hle, h⟩
    use hle
    intro buffer written hwritten
    obtain ⟨-, rfl⟩ := of_writeHeader hwritten
    rw [h, List.take_left' (length_header selectedProtocol sequence)]

/-- Reading undoes writing. -/
theorem readSequence_writeHeader {written : List Byte}
    (h : writeHeader bytes selectedProtocol sequence = .ok written) :
  readSequence written selectedProtocol = .ok sequence
  := by
  obtain ⟨hle, rfl⟩ := of_writeHeader h
  have hheader := length_header selectedProtocol sequence
  rw [readSequence_eq_ok]
  constructor
  · rw [List.length_append]
    omega
  · apply List.take_left' hheader

/-! ### Templates -/

/-- A template of the client: a message that is initialised, and rewritten with the headers of
the sequences. -/
def template (payloadBytes : ℕ) (selectedProtocol : Protocol) (sequences : List UInt32) :
    Except String (List Byte) := do
  let bytes ← initializeMessage (List.replicate payloadBytes 0) selectedProtocol
  sequences.foldlM (fun bytes sequence => writeHeader bytes selectedProtocol sequence) bytes

/-- A template remembers its last header only. -/
theorem template_eq {payloadBytes : ℕ} (h : 8 ≤ payloadBytes) :
  template payloadBytes selectedProtocol sequences
    = .ok (header selectedProtocol (sequences.getLastD 0) ++ pattern payloadBytes)
  := by
  have hlength : (List.replicate payloadBytes (0 : Byte)).length = payloadBytes :=
    List.length_replicate
  induction sequences using List.reverseRecOn with
  | nil =>
      rw [template, initializeMessage_eq (by omega), hlength]
      rfl
  | append_singleton sequences sequence ih =>
      have hstep : template payloadBytes selectedProtocol (sequences ++ [sequence])
          = template payloadBytes selectedProtocol sequences >>= fun bytes =>
              writeHeader bytes selectedProtocol sequence := by
        simp only [template, List.foldlM_append, List.foldlM_cons, List.foldlM_nil, bind_pure,
          bind_assoc]
      have hheader := length_header selectedProtocol (sequences.getLastD 0)
      rw [hstep, ih, Raising.ok_bind, writeHeader_eq, List.drop_left' hheader,
        List.getLastD_concat]
      rw [List.length_append, hheader]
      omega

/-- The test of the client on a response. The sequence is read, the template is rewritten with
it, and the response is compared with the template. -/
def validateResponse (inbound expected : List Byte) (selectedProtocol : Protocol) :
    Except String (Option UInt32) := do
  let observed ← readSequence inbound selectedProtocol
  let expected ← writeHeader expected selectedProtocol observed
  .ok (if inbound ≠ expected then none else some observed)

theorem validateResponse_eq_ok {expected : List Byte} :
  validateResponse inbound expected selectedProtocol = .ok (some sequence)
    ↔ readSequence inbound selectedProtocol = .ok sequence
      ∧ writeHeader expected selectedProtocol sequence = .ok inbound
  := by
  simp only [validateResponse, Raising.bind_eq_ok, Except.ok.injEq]
  constructor
  · rintro ⟨observed, hread, written, hwrite, h⟩
    split_ifs at h with hne
    obtain rfl := Option.some.inj h
    rw [ne_eq, not_not] at hne
    use hread
    rw [hne, hwrite]
  · rintro ⟨hread, hwrite⟩
    use sequence, hread, inbound, hwrite
    rw [if_neg (not_not.mpr rfl)]

/-- The measured loop makes the test on a response which comes from the server and fills the
buffer. The response is invalid unless its sequence is a measured one and the test accepts it. -/
theorem Client.examineMeasured_invalid {Address : Type} [DecidableEq Address]
    {u : UdpSetup Address} {c : Client} {index : ℕ} {sentAt receivedAt : UInt64}
    {datagram : ReceivedDatagram Address} (htruncated : datagram.truncated = false)
    (hbytes : datagram.bytes = c.inbound.length)
    (hpeer : ¬u.options.profile.udpConnected → datagram.peer = u.serverAddress)
    (hexpected : 8 ≤ c.expected.length) :
  (c.examineMeasured u index sentAt receivedAt datagram).invalid
    = match validateResponse c.inbound c.expected .udp with
      | .ok (some observed) =>
          if observed.toNat < u.options.warmup ∨ observed.toNat ≥ u.options.total then
            c.invalid + 1
          else c.invalid
      | _ => c.invalid + 1
  := by
  have hfull : ¬(datagram.truncated = true ∨ datagram.bytes > c.inbound.length) := by
    simp [htruncated, hbytes]
  have hsource : ¬(datagram.bytes ≠ c.inbound.length ∨
      (¬u.options.profile.udpConnected ∧ datagram.peer ≠ u.serverAddress)) := by
    simpa [hbytes] using hpeer
  rw [examineMeasured, if_neg hfull, if_neg hsource, validateResponse]
  cases readSequence c.inbound .udp with
  | error message => rfl
  | ok observed =>
      have hwrite := writeHeader_eq hexpected .udp observed
      simp only [Raising.ok_bind, hwrite]
      by_cases hne : c.inbound ≠ header .udp observed ++ c.expected.drop 8
      · rw [if_pos hne, if_pos hne]
        split_ifs <;> rfl
      · rw [if_neg hne, if_neg hne]
        by_cases hrange : observed.toNat < u.options.warmup ∨ observed.toNat ≥ u.options.total
        · simp only [if_pos hrange]
          rfl
        · simp only [if_neg hrange]
          split_ifs
          · rfl
          · apply (moves_sample _ _ _ _ _).invalid

/-! ### The wire format -/

/-- Validation accepts exactly the message that was sent. A header is read as it was written,
and writing it leaves the rest; it is read from no other bytes; and the test of the client
accepts nothing but the message it sends for the sequence, whatever both templates were
rewritten with before. The measured loop of a UDP client counts a full response from the server
as invalid unless it passes the test with a measured sequence. -/
theorem wire_exact {Address : Type} [DecidableEq Address] :
  (∀ bytes selectedProtocol sequence, 8 ≤ bytes.length →
      ∃ written, writeHeader bytes selectedProtocol sequence = .ok written
        ∧ readSequence written selectedProtocol = .ok sequence
        ∧ written.length = bytes.length
        ∧ written.drop 8 = bytes.drop 8)
    ∧ (∀ bytes expectedProtocol sequence,
        readSequence bytes expectedProtocol = .ok sequence
          ↔ HasHeader bytes expectedProtocol sequence)
    ∧ (∀ bytes expectedProtocol,
        (∀ sequence, ¬HasHeader bytes expectedProtocol sequence) →
          ∃ message, readSequence bytes expectedProtocol = .error message)
    ∧ (∀ payloadBytes selectedProtocol compared sent sequence, 8 ≤ payloadBytes →
        ∃ expected outbound, template payloadBytes selectedProtocol compared = .ok expected
          ∧ template payloadBytes selectedProtocol (sent ++ [sequence]) = .ok outbound
          ∧ ∀ inbound, inbound.length = payloadBytes →
            (validateResponse inbound expected selectedProtocol = .ok (some sequence)
              ↔ inbound = outbound))
    ∧ ∀ (u : UdpSetup Address) (c : Client) index sentAt receivedAt datagram,
        datagram.truncated = false → datagram.bytes = c.inbound.length →
        (¬u.options.profile.udpConnected → datagram.peer = u.serverAddress) →
        8 ≤ c.expected.length →
        (c.examineMeasured u index sentAt receivedAt datagram).invalid
          = match validateResponse c.inbound c.expected .udp with
            | .ok (some observed) =>
                if observed.toNat < u.options.warmup ∨ observed.toNat ≥ u.options.total then
                  c.invalid + 1
                else c.invalid
            | _ => c.invalid + 1
  := by
  refine ⟨?_, ?_, ?_, ?_, ?_⟩
  · intro bytes selectedProtocol sequence hle
    have hwritten := writeHeader_eq hle selectedProtocol sequence
    have hheader := length_header selectedProtocol sequence
    refine ⟨_, hwritten, readSequence_writeHeader hwritten, ?_, ?_⟩
    · rw [List.length_append, List.length_drop]
      omega
    · apply List.drop_left' hheader
  · intro bytes expectedProtocol sequence
    rw [readSequence_eq_ok, hasHeader_iff]
  · intro bytes expectedProtocol hnone
    cases hread : readSequence bytes expectedProtocol with
    | error message => use message
    | ok sequence =>
        rw [readSequence_eq_ok, ← hasHeader_iff] at hread
        cases hnone sequence hread
  · intro payloadBytes selectedProtocol compared sent sequence hle
    refine ⟨_, _, template_eq hle, template_eq hle, ?_⟩
    intro inbound _
    have hcompared := length_header selectedProtocol (compared.getLastD 0)
    have hexpected : writeHeader
        (header selectedProtocol (compared.getLastD 0) ++ pattern payloadBytes)
        selectedProtocol sequence
          = .ok (header selectedProtocol sequence ++ pattern payloadBytes) := by
      rw [writeHeader_eq, List.drop_left' hcompared]
      rw [List.length_append]
      omega
    rw [validateResponse_eq_ok, List.getLastD_concat, hexpected, Except.ok.injEq]
    constructor
    · rintro ⟨-, rfl⟩
      rfl
    · rintro rfl
      use readSequence_writeHeader hexpected
  · intro u c index sentAt receivedAt datagram htruncated hbytes hpeer hexpected
    apply Client.examineMeasured_invalid htruncated hbytes hpeer hexpected

end SocketLatency
