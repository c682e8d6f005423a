import Mathlib.Algebra.Group.Nat.Defs
import Mathlib.Data.Nat.Basic

/-!
# Configuration of the socket benchmark

The options of a run, with the bounds that `parse_options` checks.
-/

namespace SocketLatency

inductive Protocol where
  | tcp
  | udp
  deriving DecidableEq

inductive WaitStrategy where
  | kernel
  | spin
  deriving DecidableEq

/-- The part of a profile which the runs and their rows depend on. -/
structure ProfileSpec where
  receiveWait : WaitStrategy
  tcpNodelay : Bool
  udpConnected : Bool

def payloadSizes : List ℕ := [8, 64, 256, 1400]

def nanosecondsPerSecond : ℕ := 1000000000

def udpWarmupTimeoutNs : ℕ := 5 * nanosecondsPerSecond

/-- The largest sequence of the wire format. -/
def maximumSequence : ℕ := 2 ^ 32 - 1

/-! ### Options -/

/-- Options with the bounds that `parse_options` ensures. -/
structure Options where
  warmup : ℕ
  samples : ℕ
  udpTimeoutMs : ℕ
  profile : ProfileSpec
  warmup_pos : 0 < warmup
  samples_pos : 0 < samples
  udpTimeoutMs_pos : 0 < udpTimeoutMs
  sequences : warmup ≤ maximumSequence ∧ samples ≤ maximumSequence - warmup
  udpTimeoutMs_le : udpTimeoutMs ≤ 60000

/-- The check which `parse_size` makes of the number it has read. -/
def parseSize (parsed : ℕ) (optionName : String) : Except String { n : ℕ // 0 < n } :=
  if h : 0 < parsed then .ok ⟨parsed, h⟩
  else .error (optionName ++ " requires a positive integer")

/-- The checks which `parse_options` makes of the numbers of a run. -/
def parseOptions (warmup samples udpTimeoutMs : ℕ) (profile : ProfileSpec) :
    Except String Options := do
  let warmup ← parseSize warmup "--warmup"
  let samples ← parseSize samples "--samples"
  let udpTimeoutMs ← parseSize udpTimeoutMs "--udp-timeout-ms"
  if hsequences : warmup.val > maximumSequence ∨ samples.val > maximumSequence - warmup.val then
    .error "warmup plus samples exceeds the 32-bit wire sequence"
  else if htimeout : udpTimeoutMs.val > 60000 then
    .error "UDP timeout cannot exceed 60000 ms"
  else
    .ok
      { warmup := warmup
        samples := samples
        udpTimeoutMs := udpTimeoutMs
        profile := profile
        warmup_pos := warmup.property
        samples_pos := samples.property
        udpTimeoutMs_pos := udpTimeoutMs.property
        sequences := by omega
        udpTimeoutMs_le := by omega }

namespace Options

variable (o : Options)

/-- The number of requests of a run. -/
def total : ℕ := o.warmup + o.samples

theorem total_lt : o.total < 2 ^ 32 := by
  have hsequences := o.sequences
  rw [maximumSequence] at hsequences
  rw [total]
  omega

end Options

end SocketLatency
