import LowLatency.Sockets.Loop
import Mathlib.Data.List.TakeDrop

/-!
# Sending an exact payload

`send_all` over any trace of answers of the kernel, with the bytes that the kernel has accepted.
-/

namespace Sockets

namespace SendOutcome

/-- The bytes of `offered` that the kernel takes. -/
def taken (offered : List Byte) : SendOutcome → List Byte
  | .sent count => offered.take count
  | .failed _ => []

/-- The kernel takes bytes. -/
def progress : SendOutcome → Bool
  | .sent count => count > 0
  | .failed _ => false

/-- The error of a send that fails. An interruption is no failure. -/
def failure : SendOutcome → Option Errno
  | .sent count => if count > 0 then none else some EPIPE
  | .failed errno => if errno = EINTR then none else some errno

end SendOutcome

/-- The progress of a `send_all`, and what the kernel has accepted since it began. -/
structure Sending where
  bytesSent : ℕ
  accepted : List Byte

/-- The kernel takes no more than it is offered. -/
def Sending.Fits (bytes : List Byte) (s : Sending) : SendOutcome → Prop
  | .sent count => count ≤ bytes.length - s.bytesSent
  | .failed _ => True

/-- The beginning of `send_all`. -/
def sendAllStart (bytes : List Byte) : Turn Sending SendResult :=
  (sendAllHead bytes 0).map (fun bytesSent => { bytesSent := bytesSent, accepted := [] }) id

/-- A turn of `send_all`, and what the kernel has accepted after it. -/
def sendAll (bytes : List Byte) (s : Sending) (outcome : SendOutcome) : Turn Sending SendResult :=
  (sendAllTurn bytes s.bytesSent outcome).map
    (fun bytesSent =>
      { bytesSent := bytesSent
        accepted := s.accepted ++ outcome.taken (bytes.drop s.bytesSent) }) id

/-- `send_all` over a trace of answers. -/
def sendAllRun (bytes : List Byte) (trace : List SendOutcome) :
    Turn Sending SendResult × List SendOutcome :=
  Turn.run (sendAll bytes) (sendAllStart bytes) trace

/-- A trace of answers to `send_all`. -/
def SendTrace (bytes : List Byte) (trace : List SendOutcome) : Prop :=
  Turn.Along (sendAll bytes) (Sending.Fits bytes) (sendAllStart bytes) trace

/-- What holds after any turn of `send_all`. -/
structure Sent (bytes : List Byte) (t : Turn Sending SendResult) : Prop where
  accepted : t.locals.accepted = bytes.take t.locals.bytesSent
  bytesSent_le : t.locals.bytesSent ≤ bytes.length
  again : ∀ s, t = .again s → s.bytesSent < bytes.length
  done : ∀ s result, t = .done s result →
    result.bytesSent = s.bytesSent ∧ (result.error = none ↔ s.bytesSent = bytes.length)

variable {bytes : List Byte} {s : Sending} {result : SendResult} {outcome : SendOutcome}
  {trace rest : List SendOutcome}

/-- The head of the loop of `send_all` returns when everything is sent. -/
theorem sent_head {accepted : List Byte} {bytesSent : ℕ} (hle : bytesSent ≤ bytes.length)
    (haccepted : accepted = bytes.take bytesSent) :
  Sent bytes ((sendAllHead bytes bytesSent).map
    (fun bytesSent => { bytesSent := bytesSent, accepted := accepted }) id)
  := by
  rw [sendAllHead]
  split_ifs with hlt
  · constructor
    · apply haccepted
    · apply hle
    · intro s hs
      obtain rfl := Turn.again.inj hs
      apply hlt
    · intro s result hs
      cases hs
  · constructor
    · apply haccepted
    · apply hle
    · intro s hs
      cases hs
    · intro s result hs
      obtain ⟨rfl, rfl⟩ := Turn.done.inj hs
      use rfl
      simp only [id_eq, true_iff]
      omega

theorem sent_start : Sent bytes (sendAllStart bytes) := by
  apply sent_head (Nat.zero_le _)
  rfl

/-- A turn in which the send fails. -/
theorem sendAll_of_failure {errno : Errno} (h : outcome.failure = some errno) :
  sendAll bytes s outcome = .done s { bytesSent := s.bytesSent, error := some errno }
  := by
  cases outcome with
  | sent count =>
      rw [SendOutcome.failure] at h
      split_ifs at h with hcount
      obtain rfl : count = 0 := by omega
      obtain rfl := Option.some.inj h
      simp [sendAll, sendAllTurn, Turn.map, SendOutcome.taken]
  | failed errno' =>
      rw [SendOutcome.failure] at h
      split_ifs at h with herrno
      obtain rfl := Option.some.inj h
      simp [sendAll, sendAllTurn, Turn.map, SendOutcome.taken, herrno]

/-- A turn in which the send does not fail. -/
theorem sendAll_of_not_failure (bytes : List Byte) (s : Sending) (h : outcome.failure = none) :
  ∃ count, sendAll bytes s outcome
      = (sendAllHead bytes (s.bytesSent + count)).map
          (fun bytesSent =>
            { bytesSent := bytesSent
              accepted := s.accepted ++ (bytes.drop s.bytesSent).take count }) id
    ∧ (s.Fits bytes outcome → count ≤ bytes.length - s.bytesSent)
    ∧ (outcome.progress = true → 0 < count)
  := by
  cases outcome with
  | sent count =>
      rw [SendOutcome.failure] at h
      split_ifs at h with hcount
      use count
      rw [sendAll, sendAllTurn, if_pos hcount]
      refine ⟨rfl, ?_, ?_⟩
      · intro hfits
        apply hfits
      · intro _
        apply hcount
  | failed errno =>
      rw [SendOutcome.failure] at h
      split_ifs at h with herrno
      use 0
      rw [sendAll, sendAllTurn, if_pos herrno]
      refine ⟨rfl, ?_, ?_⟩
      · intro _
        apply Nat.zero_le
      · intro hprogress
        cases hprogress

/-- A turn of `send_all`. -/
theorem Sent.turn (h : Sent bytes (.again s)) (hfits : s.Fits bytes outcome) :
  Sent bytes (sendAll bytes s outcome)
  := by
  have hlt := h.again s rfl
  have haccepted : s.accepted = bytes.take s.bytesSent := h.accepted
  cases hfailure : outcome.failure with
  | none =>
      obtain ⟨count, hturn, hcount, -⟩ := sendAll_of_not_failure bytes s hfailure
      rw [hturn]
      apply sent_head
      · have := hcount hfits
        omega
      · rw [haccepted, List.take_add]
  | some errno =>
      rw [sendAll_of_failure hfailure]
      constructor
      · apply h.accepted
      · apply h.bytesSent_le
      · intro s' hs'
        cases hs'
      · intro s' result hs'
        obtain ⟨rfl, rfl⟩ := Turn.done.inj hs'
        use rfl
        simp only [reduceCtorEq, false_iff]
        omega

theorem SendTrace.sent (htrace : SendTrace bytes trace) :
  Sent bytes (sendAllRun bytes trace).1
  := by
  apply Turn.run_invariant_along htrace sent_start
  intro s outcome hs hfits
  apply hs.turn hfits

/-- Nothing fails in what is left of the trace, which takes what is left of the bytes. -/
structure Recovered (bytes : List Byte) (t : Turn Sending SendResult) (rest : List SendOutcome) :
    Prop where
  failure : ∀ outcome ∈ rest, outcome.failure = none
  again : ∀ s, t = .again s →
    s.bytesSent < bytes.length ∧ bytes.length ≤ s.bytesSent + rest.countP SendOutcome.progress
  done : ∀ s result, t = .done s result → result.error = none

theorem recovered_head {accepted : List Byte} {bytesSent : ℕ}
    (hfailure : ∀ outcome ∈ rest, outcome.failure = none)
    (hle : bytes.length ≤ bytesSent + rest.countP SendOutcome.progress) :
  Recovered bytes ((sendAllHead bytes bytesSent).map
    (fun bytesSent => { bytesSent := bytesSent, accepted := accepted }) id) rest
  := by
  rw [sendAllHead]
  split_ifs with hlt
  · constructor
    · apply hfailure
    · intro s hs
      obtain rfl := Turn.again.inj hs
      use hlt
    · intro s result hs
      cases hs
  · constructor
    · apply hfailure
    · intro s hs
      cases hs
    · intro s result hs
      obtain ⟨-, rfl⟩ := Turn.done.inj hs
      rfl

theorem Recovered.turn (h : Recovered bytes (.again s) (outcome :: rest)) :
  Recovered bytes (sendAll bytes s outcome) rest
  := by
  have hfailure := h.failure outcome List.mem_cons_self
  obtain ⟨-, hle⟩ := h.again s rfl
  rw [List.countP_cons] at hle
  obtain ⟨count, hturn, -, hprogress⟩ := sendAll_of_not_failure bytes s hfailure
  rw [hturn]
  apply recovered_head
  · intro outcome' houtcome'
    apply h.failure outcome' (List.mem_cons_of_mem _ houtcome')
  · split_ifs at hle with hpos
    · have := hprogress hpos
      omega
    · omega

/-- When no send fails, and enough of them take bytes, `send_all` returns without an error. -/
theorem sendAllRun_returns (hfailure : ∀ outcome ∈ trace, outcome.failure = none)
    (hprogress : bytes.length ≤ trace.countP SendOutcome.progress) :
  ∃ s result rest, sendAllRun bytes trace = (.done s result, rest) ∧ result.error = none
  := by
  have hstart : Recovered bytes (sendAllStart bytes) trace := by
    apply recovered_head hfailure
    omega
  have hrun : Recovered bytes (sendAllRun bytes trace).1 (sendAllRun bytes trace).2 := by
    apply Turn.run_invariant hstart
    intro s outcome rest hs
    apply hs.turn
  cases hleft : (sendAllRun bytes trace).1 with
  | done s result =>
      use s, result, (sendAllRun bytes trace).2
      constructor
      · rw [← hleft]
      · apply hrun.done s result hleft
  | again s =>
      obtain ⟨hlt, hle⟩ := hrun.again s hleft
      have hrest : (sendAllRun bytes trace).2 = [] := Turn.run_again_snd (Prod.ext hleft rfl)
      rw [hrest, List.countP_nil] at hle
      omega

/-- What a `send_all` that returns reports. -/
theorem SendTrace.returned (htrace : SendTrace bytes trace)
    (hreturn : sendAllRun bytes trace = (.done s result, rest)) :
  s.bytesSent = result.bytesSent
    ∧ s.accepted = bytes.take result.bytesSent
    ∧ result.bytesSent ≤ bytes.length
    ∧ (result.error = none ↔ result.bytesSent = bytes.length)
  := by
  have hsent := htrace.sent
  rw [hreturn] at hsent
  obtain ⟨hbytes, herror⟩ := hsent.done s result rfl
  rw [hbytes]
  refine ⟨rfl, hsent.accepted, hsent.bytesSent_le, herror⟩

/-- A trace without failures, long enough, completes the payload. -/
theorem SendTrace.completes (htrace : SendTrace bytes trace)
    (hfailure : ∀ outcome ∈ trace, outcome.failure = none)
    (hprogress : bytes.length ≤ trace.countP SendOutcome.progress) :
  ∃ s result rest, sendAllRun bytes trace = (.done s result, rest)
    ∧ result.complete bytes.length = true ∧ s.accepted = bytes
  := by
  obtain ⟨s, result, rest, hreturn, hnone⟩ := sendAllRun_returns hfailure hprogress
  obtain ⟨-, haccepted, -, herror⟩ := htrace.returned hreturn
  have hfull : result.bytesSent = bytes.length := herror.mp hnone
  use s, result, rest, hreturn
  constructor
  · rw [SendResult.complete, decide_eq_true_iff]
    use hnone
  · rw [haccepted, hfull, List.take_length]

end Sockets
