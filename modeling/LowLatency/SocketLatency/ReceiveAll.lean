import LowLatency.SocketLatency.Configuration
import LowLatency.Sockets.BusySpin
import LowLatency.Sockets.Loop

/-!
# The watchdog of a TCP receive

The loop of `receive_all`. When it polls, it counts down the polls that find nothing, and reads
the clock each time the count is down; data and interruptions leave the count as it is. What
the kernel answers and what the clock reads, if it is read, are the inputs of a turn.
-/

namespace SocketLatency

open Sockets (Byte Errno EINTR EAGAIN EWOULDBLOCK RecvOutcome Turn)

def spinDeadlineCheckInterval : UInt64 := 4096

/-- `std::numeric_limits<std::uint64_t>::max()`, which stands for no deadline. -/
def noDeadline : UInt64 := 18446744073709551615

/-- The exceptions of `receive_all`. -/
inductive ReceiveFailure where
  | safetyTimeout
  | peerClosed
  | recv (errno : Errno)
  deriving DecidableEq

/-- The local variables of `receive_all`. -/
structure ReceiveAll where
  bytes : List Byte
  offset : ℕ
  spinsUntilDeadlineCheck : UInt64

/-- An iteration: the answer of `recv`, and what the clock reads. -/
structure Poll where
  outcome : RecvOutcome
  now : UInt64

/-- A turn ends with the exception, or with a return. -/
abbrev ReceiveTurn : Type := Turn ReceiveAll (Except ReceiveFailure Unit)

namespace ReceiveAll

/-- The receive after `recv` has filled in `received`. -/
def fill (r : ReceiveAll) (received : List Byte) : ReceiveAll :=
  { r with
    bytes := Span.write r.bytes r.offset received
    offset := r.offset + received.length }

/-- The receive with the count of polls until the next check. -/
def withSpins (r : ReceiveAll) (spins : UInt64) : ReceiveAll :=
  { r with spinsUntilDeadlineCheck := spins }

/-- The head of the loop. -/
def head (r : ReceiveAll) : ReceiveTurn :=
  if r.offset < r.bytes.length then .again r else .done r (.ok ())

/-- The beginning of `receive_all`. -/
def start (bytes : List Byte) : ReceiveTurn :=
  head { bytes := bytes, offset := 0, spinsUntilDeadlineCheck := spinDeadlineCheckInterval }

/-- A poll has found nothing. -/
def missed (r : ReceiveAll) (spinDeadlineNs now : UInt64) : ReceiveTurn :=
  if spinDeadlineNs ≠ noDeadline then
    let r := r.withSpins (r.spinsUntilDeadlineCheck - 1)
    if r.spinsUntilDeadlineCheck = 0 then
      if now ≥ spinDeadlineNs then .done r (.error .safetyTimeout)
      else (r.withSpins spinDeadlineCheckInterval).head
    else r.head
  else r.head

/-- An iteration of the loop. -/
def turn (strategy : WaitStrategy) (spinDeadlineNs : UInt64) (r : ReceiveAll) (poll : Poll) :
    ReceiveTurn :=
  match poll.outcome with
  | .received bytes =>
      if bytes.length > 0 then (r.fill bytes).head else .done r (.error .peerClosed)
  | .failed errno =>
      if errno = EINTR then r.head
      else if strategy = .spin ∧ (errno = EAGAIN ∨ errno = EWOULDBLOCK) then
        r.missed spinDeadlineNs poll.now
      else .done r (.error (.recv errno))

/-- `receive_all` over a trace of iterations. -/
def run (strategy : WaitStrategy) (spinDeadlineNs : UInt64) (bytes : List Byte)
    (trace : List Poll) : ReceiveTurn × List Poll :=
  Turn.run (turn strategy spinDeadlineNs) (start bytes) trace

/-- The iterations of a trace that `receive_all` makes. -/
def taken (strategy : WaitStrategy) (spinDeadlineNs : UInt64) (bytes : List Byte)
    (trace : List Poll) : List Poll :=
  Turn.taken (turn strategy spinDeadlineNs) (start bytes) trace

/-- The kernel delivers no more than it is asked for. -/
def Fits (r : ReceiveAll) (poll : Poll) : Prop :=
  poll.outcome.delivered.length ≤ r.bytes.length - r.offset

/-- A trace of answers to the calls of `receive_all`. -/
def Fitting (strategy : WaitStrategy) (spinDeadlineNs : UInt64) (bytes : List Byte)
    (trace : List Poll) : Prop :=
  Turn.Along (turn strategy spinDeadlineNs) Fits (start bytes) trace

end ReceiveAll

variable {strategy : WaitStrategy} {spinDeadlineNs : UInt64} {r r' : ReceiveAll} {poll : Poll}
  {bytes : List Byte} {before trace rest : List Poll}

/-! ### The forms of a turn -/

namespace ReceiveAll

/-- What an iteration does. -/
inductive Turned (strategy : WaitStrategy) (spinDeadlineNs : UInt64) (r : ReceiveAll)
    (poll : Poll) : ReceiveTurn → Prop
  | filled (hwouldBlock : poll.outcome.wouldBlock = false) (bytes : List Byte)
      (houtcome : poll.outcome = .received bytes) :
      Turned strategy spinDeadlineNs r poll (r.fill bytes).head
  | interrupted (hwouldBlock : poll.outcome.wouldBlock = false)
      (houtcome : poll.outcome.delivered = []) :
      Turned strategy spinDeadlineNs r poll r.head
  | unwatched (houtcome : poll.outcome.delivered = []) (hdeadline : spinDeadlineNs = noDeadline) :
      Turned strategy spinDeadlineNs r poll r.head
  | counted (houtcome : poll.outcome.delivered = []) (hstrategy : strategy = .spin)
      (hdeadline : spinDeadlineNs ≠ noDeadline) (hspins : r.spinsUntilDeadlineCheck - 1 ≠ 0) :
      Turned strategy spinDeadlineNs r poll (r.withSpins (r.spinsUntilDeadlineCheck - 1)).head
  | checked (houtcome : poll.outcome.delivered = []) (hstrategy : strategy = .spin)
      (hdeadline : spinDeadlineNs ≠ noDeadline) (hnow : poll.now < spinDeadlineNs) :
      Turned strategy spinDeadlineNs r poll (r.withSpins spinDeadlineCheckInterval).head
  | timedOut (houtcome : poll.outcome.delivered = []) (hstrategy : strategy = .spin)
      (hdeadline : spinDeadlineNs ≠ noDeadline) (hnow : spinDeadlineNs ≤ poll.now) :
      Turned strategy spinDeadlineNs r poll
        (.done (r.withSpins (r.spinsUntilDeadlineCheck - 1)) (.error .safetyTimeout))
  | failed (failure : ReceiveFailure) (hfailure : failure ≠ .safetyTimeout) :
      Turned strategy spinDeadlineNs r poll (.done r (.error failure))

theorem turned (strategy : WaitStrategy) (spinDeadlineNs : UInt64) (r : ReceiveAll) (poll : Poll) :
  Turned strategy spinDeadlineNs r poll (turn strategy spinDeadlineNs r poll)
  := by
  cases hpoll : poll.outcome with
  | received received =>
      simp only [turn, hpoll]
      split_ifs
      · apply Turned.filled (by rw [hpoll]; rfl) received hpoll
      · apply Turned.failed
        intro h
        cases h
  | failed errno =>
      have houtcome : poll.outcome.delivered = [] := by
        rw [hpoll]
        rfl
      simp only [turn, hpoll]
      split_ifs with hinterrupted hspin
      · apply Turned.interrupted _ houtcome
        simp [hpoll, RecvOutcome.wouldBlock, hinterrupted, EINTR, EAGAIN, EWOULDBLOCK]
      · simp only [missed]
        split_ifs with hdeadline hspins hnow
        · apply Turned.timedOut houtcome hspin.1 hdeadline hnow
        · apply Turned.checked houtcome hspin.1 hdeadline (UInt64.not_le.mp hnow)
        · apply Turned.counted houtcome hspin.1 hdeadline hspins
        · apply Turned.unwatched houtcome (not_not.mp hdeadline)
      · apply Turned.failed
        intro h
        cases h

/-- The head of the loop goes on with the variables as they are, or returns. -/
theorem head_cases (r : ReceiveAll) :
  (r.head = .again r ∧ r.offset < r.bytes.length)
    ∨ (r.head = .done r (.ok ()) ∧ r.bytes.length ≤ r.offset)
  := by
  rw [head]
  split_ifs with hlt
  · left
    use rfl
  · right
    use rfl
    omega

theorem eq_of_head (h : r.head = .again r') : r' = r := by
  rcases head_cases r with ⟨hhead, -⟩ | ⟨hhead, -⟩
  · rw [hhead] at h
    apply (Turn.again.inj h).symm
  · rw [hhead] at h
    cases h

/-- The iteration that throws the safety timeout. -/
theorem timedOut_of_turn
    (h : turn strategy spinDeadlineNs r poll = .done r' (.error .safetyTimeout)) :
  strategy = .spin ∧ spinDeadlineNs ≠ noDeadline ∧ spinDeadlineNs ≤ poll.now
  := by
  have hhead (r : ReceiveAll) : r.head ≠ .done r' (.error .safetyTimeout) := by
    rcases head_cases r with ⟨hhead, -⟩ | ⟨hhead, -⟩
    all_goals
      rw [hhead]
      intro h
      cases h
  have hturned := turned strategy spinDeadlineNs r poll
  generalize turn strategy spinDeadlineNs r poll = t at h hturned
  cases hturned with
  | filled | interrupted | unwatched | counted | checked => cases hhead _ h
  | timedOut _ hstrategy hdeadline hnow => use hstrategy, hdeadline
  | failed failure hfailure =>
      obtain ⟨-, herror⟩ := Turn.done.inj h
      cases hfailure (Except.error.inj herror)

/-! ### The count of polls -/

/-- The count lies between one and the interval. -/
def Counting (t : ReceiveTurn) : Prop :=
  ∀ r, t = .again r →
    1 ≤ r.spinsUntilDeadlineCheck.toNat ∧ r.spinsUntilDeadlineCheck.toNat ≤ 4096

theorem counting_head (hpos : 1 ≤ r.spinsUntilDeadlineCheck.toNat)
    (hle : r.spinsUntilDeadlineCheck.toNat ≤ 4096) :
  Counting r.head
  := by
  intro r' h
  rw [eq_of_head h]
  use hpos

/-- The interval is a count. -/
theorem interval_bounds :
  1 ≤ spinDeadlineCheckInterval.toNat ∧ spinDeadlineCheckInterval.toNat ≤ 4096
  := by
  decide

/-- A count that is not down is one less than before. -/
theorem toNat_spins_sub (hpos : 1 ≤ r.spinsUntilDeadlineCheck.toNat) :
  (r.spinsUntilDeadlineCheck - 1).toNat = r.spinsUntilDeadlineCheck.toNat - 1
  := by
  apply UInt64.toNat_sub_of_le
  rw [UInt64.le_iff_toNat_le]
  apply hpos

theorem toNat_spins_pos (hspins : r.spinsUntilDeadlineCheck - 1 ≠ 0) :
  1 ≤ (r.spinsUntilDeadlineCheck - 1).toNat
  := by
  apply Nat.pos_of_ne_zero
  intro hzero
  apply hspins (UInt64.toNat_inj.mp hzero)

theorem Counting.turn (h : Counting (.again r)) :
  Counting (turn strategy spinDeadlineNs r poll)
  := by
  obtain ⟨hpos, hle⟩ := h r rfl
  have hturned := turned strategy spinDeadlineNs r poll
  generalize ReceiveAll.turn strategy spinDeadlineNs r poll = t at hturned
  cases hturned with
  | filled | interrupted | unwatched =>
      apply counting_head
      · apply hpos
      · apply hle
  | counted _ _ _ hspins =>
      have hcount := toNat_spins_sub hpos
      apply counting_head
      · apply toNat_spins_pos hspins
      · change (r.spinsUntilDeadlineCheck - 1).toNat ≤ 4096
        omega
  | checked =>
      apply counting_head
      · apply interval_bounds.1
      · apply interval_bounds.2
  | timedOut | failed =>
      intro r' h'
      cases h'

theorem counting_run (strategy : WaitStrategy) (spinDeadlineNs : UInt64) (bytes : List Byte)
    (trace : List Poll) :
  Counting (run strategy spinDeadlineNs bytes trace).1
  := by
  apply Turn.run_invariant (P := fun t _ => Counting t)
  · apply counting_head
    · apply interval_bounds.1
    · apply interval_bounds.2
  · intro r poll rest h
    apply h.turn

/-! ### Polls after the deadline -/

/-- The polls that find nothing when the deadline is over. -/
def lateMisses (spinDeadlineNs : UInt64) (polls : List Poll) : ℕ :=
  polls.countP fun poll => poll.outcome.wouldBlock && decide (spinDeadlineNs ≤ poll.now)

theorem lateMisses_concat (spinDeadlineNs : UInt64) (polls : List Poll) (poll : Poll) :
  lateMisses spinDeadlineNs (polls ++ [poll])
    = lateMisses spinDeadlineNs polls
      + if poll.outcome.wouldBlock && decide (spinDeadlineNs ≤ poll.now) then 1 else 0
  := by
  rw [lateMisses, List.countP_append, List.countP_singleton]
  rfl

/-- Each late miss has been counted down. -/
structure Watched (spinDeadlineNs : UInt64) (before : List Poll) (t : ReceiveTurn) : Prop where
  lateMisses_le : lateMisses spinDeadlineNs before ≤ 4096
  again : ∀ r, t = .again r → 1 ≤ r.spinsUntilDeadlineCheck.toNat ∧
    lateMisses spinDeadlineNs before + r.spinsUntilDeadlineCheck.toNat ≤ 4096

theorem watched_head (hpos : 1 ≤ r.spinsUntilDeadlineCheck.toNat)
    (hle : lateMisses spinDeadlineNs before + r.spinsUntilDeadlineCheck.toNat ≤ 4096) :
  Watched spinDeadlineNs before r.head
  := by
  constructor
  · omega
  · intro r' h
    rw [eq_of_head h]
    use hpos

/-- An iteration, on a clock which does not go back. -/
theorem Watched.turn (h : Watched spinDeadlineNs before (.again r))
    (hdeadline : spinDeadlineNs ≠ noDeadline) (hclock : ∀ p ∈ before, p.now ≤ poll.now) :
  Watched spinDeadlineNs (before ++ [poll]) (turn strategy spinDeadlineNs r poll)
  := by
  obtain ⟨hpos, hle⟩ := h.again r rfl
  have hconcat := lateMisses_concat spinDeadlineNs before poll
  have hmore : lateMisses spinDeadlineNs (before ++ [poll])
      ≤ lateMisses spinDeadlineNs before + 1 := by
    rw [hconcat]
    split_ifs <;> omega
  have hturned := turned strategy spinDeadlineNs r poll
  generalize ReceiveAll.turn strategy spinDeadlineNs r poll = t at hturned
  cases hturned with
  | filled hwouldBlock | interrupted hwouldBlock =>
      rw [hwouldBlock, Bool.false_and, if_neg Bool.false_ne_true, Nat.add_zero] at hconcat
      apply watched_head
      · apply hpos
      · rw [hconcat]
        apply hle
  | unwatched _ hnone => cases hdeadline hnone
  | counted _ _ _ hspins =>
      have hcount := toNat_spins_sub hpos
      apply watched_head
      · apply toNat_spins_pos hspins
      · change _ + (r.spinsUntilDeadlineCheck - 1).toNat ≤ 4096
        omega
  | checked _ _ _ hnow =>
      -- the clock has not been at the deadline in any iteration so far
      have hzero : lateMisses spinDeadlineNs (before ++ [poll]) = 0 := by
        rw [lateMisses, List.countP_eq_zero]
        intro p hp hlate
        rw [Bool.and_eq_true, decide_eq_true_iff] at hlate
        have hple : p.now ≤ poll.now := by
          rcases List.mem_append.mp hp with hbefore | hlast
          · apply hclock p hbefore
          · rw [List.mem_singleton.mp hlast]
            apply UInt64.le_refl
        rw [UInt64.lt_iff_toNat_lt] at hnow
        have hge := UInt64.le_iff_toNat_le.mp hlate.2
        have hle' := UInt64.le_iff_toNat_le.mp hple
        omega
      apply watched_head
      · apply interval_bounds.1
      · rw [hzero, Nat.zero_add]
        apply interval_bounds.2
  | timedOut | failed =>
      constructor
      · omega
      · intro r' h'
        cases h'

theorem watched_run (strategy : WaitStrategy) (bytes : List Byte)
    (hdeadline : spinDeadlineNs ≠ noDeadline)
    (hclock : trace.Pairwise fun p q => p.now ≤ q.now) :
  Watched spinDeadlineNs (taken strategy spinDeadlineNs bytes trace)
    (run strategy spinDeadlineNs bytes trace).1
  := by
  have halong :
      Turn.Along (turn strategy spinDeadlineNs) (fun _ _ => True) (start bytes) trace := by
    apply Turn.along_true
  rw [← List.nil_append (taken strategy spinDeadlineNs bytes trace)]
  apply Turn.run_invariant_taken halong
  · apply watched_head
    · apply interval_bounds.1
    · rw [lateMisses, List.countP_nil, Nat.zero_add]
      apply interval_bounds.2
  · intro before r poll hprefix h _
    apply h.turn hdeadline
    intro p hp
    have hpairwise := hclock.sublist hprefix.sublist
    rw [List.pairwise_append] at hpairwise
    apply hpairwise.2.2 p hp poll (List.mem_singleton_self poll)

/-! ### The buffer -/

/-- The bytes delivered in some iterations. -/
def delivered (polls : List Poll) : List Byte :=
  polls.flatMap fun poll => poll.outcome.delivered

theorem delivered_concat (polls : List Poll) (poll : Poll) :
  delivered (polls ++ [poll]) = delivered polls ++ poll.outcome.delivered
  := by
  rw [delivered, List.flatMap_append, List.flatMap_singleton]
  rfl

/-- The buffer holds what was delivered, in front of what it held. -/
structure Filling (bytes : List Byte) (before : List Poll) (r : ReceiveAll) : Prop where
  offset : (delivered before).length = r.offset
  buffer : r.bytes = delivered before ++ bytes.drop r.offset
  offset_le : r.offset ≤ bytes.length

/-- What holds of the buffer after any iteration. A return has filled it. -/
structure Filled (bytes : List Byte) (before : List Poll) (t : ReceiveTurn) : Prop where
  filling : ∀ r, t = .again r → Filling bytes before r
  returned : ∀ r, t = .done r (.ok ()) → r.bytes = delivered before
    ∧ r.bytes.length = bytes.length

theorem Filling.length (h : Filling bytes before r) : r.bytes.length = bytes.length := by
  have hoffset := h.offset
  have hle := h.offset_le
  rw [h.buffer, List.length_append, List.length_drop]
  omega

theorem Filling.head (h : Filling bytes before r) : Filled bytes before r.head := by
  have hlength := h.length
  rcases head_cases r with ⟨hhead, -⟩ | ⟨hhead, hge⟩
  · rw [hhead]
    constructor
    · intro r' hr'
      obtain rfl := Turn.again.inj hr'
      apply h
    · intro r' hr'
      cases hr'
  · rw [hhead]
    constructor
    · intro r' hr'
      cases hr'
    · intro r' hr'
      obtain ⟨rfl, -⟩ := Turn.done.inj hr'
      refine ⟨?_, hlength⟩
      rw [h.buffer, List.drop_eq_nil_of_le (by omega), List.append_nil]

/-- An iteration that delivers nothing. -/
theorem Filling.idle (spins : UInt64) (h : Filling bytes before r)
    (houtcome : poll.outcome.delivered = []) :
  Filling bytes (before ++ [poll]) (r.withSpins spins)
  := by
  have hdelivered : delivered (before ++ [poll]) = delivered before := by
    rw [delivered_concat, houtcome, List.append_nil]
  constructor
  · rw [hdelivered]
    apply h.offset
  · rw [hdelivered]
    apply h.buffer
  · apply h.offset_le

/-- What the kernel delivers is filled in. -/
theorem Filling.fill {received : List Byte} (h : Filling bytes before r) (hfits : r.Fits poll)
    (houtcome : poll.outcome = .received received) :
  Filling bytes (before ++ [poll]) (r.fill received)
  := by
  have hlength := h.length
  have hle := h.offset_le
  have hreceived : poll.outcome.delivered = received := by
    rw [houtcome]
    rfl
  rw [Fits, hreceived] at hfits
  constructor
  · rw [delivered_concat, hreceived, List.length_append, h.offset]
    rfl
  · simp only [ReceiveAll.fill]
    rw [delivered_concat, hreceived, h.buffer, Span.write_append h.offset, List.drop_drop]
  · simp only [ReceiveAll.fill]
    omega

theorem Filled.turn (h : Filled bytes before (.again r)) (hfits : r.Fits poll) :
  Filled bytes (before ++ [poll]) (turn strategy spinDeadlineNs r poll)
  := by
  have hfilling := h.filling r rfl
  have hturned := turned strategy spinDeadlineNs r poll
  generalize ReceiveAll.turn strategy spinDeadlineNs r poll = t at hturned
  cases hturned with
  | filled _ received houtcome => apply (hfilling.fill hfits houtcome).head
  | interrupted _ houtcome | unwatched houtcome =>
      apply (hfilling.idle r.spinsUntilDeadlineCheck houtcome).head
  | counted houtcome | checked houtcome => apply (hfilling.idle _ houtcome).head
  | timedOut | failed =>
      constructor
      · intro r' hr'
        cases hr'
      · intro r' hr'
        cases hr'

theorem filled_run (hfitting : Fitting strategy spinDeadlineNs bytes trace) :
  Filled bytes (taken strategy spinDeadlineNs bytes trace)
    (run strategy spinDeadlineNs bytes trace).1
  := by
  rw [← List.nil_append (taken strategy spinDeadlineNs bytes trace)]
  apply Turn.run_invariant_taken hfitting
  · apply Filling.head
    constructor
    · rfl
    · rfl
    · apply Nat.zero_le
  · intro before r poll _ h hfits
    apply h.turn hfits

/-! ### The watchdog -/

/-- The iteration in which `receive_all` throws the safety timeout. -/
theorem exists_of_timedOut
    (h : run strategy spinDeadlineNs bytes trace = (.done r (.error .safetyTimeout), rest)) :
  ∃ before poll, trace = before ++ poll :: rest ∧ strategy = .spin
    ∧ spinDeadlineNs ≠ noDeadline ∧ spinDeadlineNs ≤ poll.now
  := by
  rw [run, start] at h
  rcases head_cases
    { bytes := bytes, offset := 0, spinsUntilDeadlineCheck := spinDeadlineCheckInterval }
    with ⟨hhead, -⟩ | ⟨hhead, -⟩
  · rw [hhead] at h
    obtain ⟨before, poll, r₀, htrace, -, hturn⟩ := Turn.exists_of_run_done h
    use before, poll, htrace
    apply timedOut_of_turn hturn
  · rw [hhead, Turn.run_done] at h
    cases h

/-- The watchdog is exact in its polls. At the start of every iteration the count lies between
one and 4096. The safety timeout is thrown only in an iteration whose clock is at the deadline
or past it. When the clock does not go back, no more than 4096 polls find nothing past a
deadline, and the loop does not go on after the last of them. A return has filled the buffer
with what was received, in order. Without a deadline, or without polling, the safety timeout is
never thrown. -/
theorem watchdog_exact (strategy : WaitStrategy) (spinDeadlineNs : UInt64) (bytes : List Byte)
    (trace : List Poll) :
  (∀ r rest, run strategy spinDeadlineNs bytes trace = (.again r, rest) →
      1 ≤ r.spinsUntilDeadlineCheck.toNat ∧ r.spinsUntilDeadlineCheck.toNat ≤ 4096)
    ∧ (∀ r rest,
        run strategy spinDeadlineNs bytes trace = (.done r (.error .safetyTimeout), rest) →
        ∃ before poll, trace = before ++ poll :: rest ∧ spinDeadlineNs ≤ poll.now)
    ∧ (strategy = .spin → spinDeadlineNs ≠ noDeadline →
        trace.Pairwise (fun p q => p.now ≤ q.now) →
        lateMisses spinDeadlineNs (taken strategy spinDeadlineNs bytes trace) ≤ 4096
          ∧ ∀ r rest, run strategy spinDeadlineNs bytes trace = (.again r, rest) →
            lateMisses spinDeadlineNs (taken strategy spinDeadlineNs bytes trace) < 4096)
    ∧ (Fitting strategy spinDeadlineNs bytes trace →
        ∀ r rest, run strategy spinDeadlineNs bytes trace = (.done r (.ok ()), rest) →
          r.bytes = delivered (taken strategy spinDeadlineNs bytes trace)
            ∧ r.bytes.length = bytes.length)
    ∧ (spinDeadlineNs = noDeadline ∨ strategy = .kernel →
        ∀ r rest,
          run strategy spinDeadlineNs bytes trace ≠ (.done r (.error .safetyTimeout), rest))
  := by
  refine ⟨?_, ?_, ?_, ?_, ?_⟩
  · intro r rest h
    apply counting_run strategy spinDeadlineNs bytes trace r
    rw [h]
  · intro r rest h
    obtain ⟨before, poll, htrace, -, -, hnow⟩ := exists_of_timedOut h
    use before, poll
  · intro _ hdeadline hclock
    have hwatched := watched_run strategy bytes hdeadline hclock
    use hwatched.lateMisses_le
    intro r rest h
    have hagain := hwatched.again r (by rw [h])
    omega
  · intro hfitting r rest h
    apply (filled_run hfitting).returned r
    rw [h]
  · intro hnever r rest h
    obtain ⟨-, -, -, hstrategy, hdeadline, -⟩ := exists_of_timedOut h
    rcases hnever with hnone | hkernel
    · apply hdeadline hnone
    · rw [hstrategy] at hkernel
      cases hkernel

end ReceiveAll

end SocketLatency
