import LowLatency.Library.OrderStatistics
import LowLatency.Percentiles.Index

/-!
# Summaries of latencies

What the three benchmarks report of their samples: the values at five fractions of the samples
in increasing order, and the greatest one. They all report the same values, which increase.

Reading outside of an array is an error of the model: a summary is `none` then.
-/

open OrderStatistics (sorted IsStatistic)

/-! ### The paired benchmark in C++ -/

namespace PairedLatency

structure Distribution where
  p50Ns : Int64
  p90Ns : Int64
  p95Ns : Int64
  p99Ns : Int64
  p99_9Ns : Int64
  maximumNs : Int64
  positiveMeasuredEvents : UInt64

/-- The columns which the runner wants to be increasing. -/
def Distribution.metrics (d : Distribution) : List Int64 :=
  [d.p50Ns, d.p90Ns, d.p95Ns, d.p99Ns, d.p99_9Ns, d.maximumNs]

/-- The lambda `at` of `summarize`. -/
def percentileAt (measured : List Int64) (numerator denominator : UInt64) : Option Int64 :=
  measured[(percentileIndex (UInt64.ofNat measured.length) numerator denominator).toNat]?

def summarize (samples : List Int64) (warmupEvents measuredEvents : UInt64) :
    Option Distribution := do
  let total := warmupEvents + measuredEvents
  let measured ← (List.range' warmupEvents.toNat (total.toNat - warmupEvents.toNat)).mapM
    fun index => samples[index]?
  let measured := sorted measured
  let positive := UInt64.ofNat (measured.countP (0 < ·))
  some
    { p50Ns := ← percentileAt measured 50 100
      p90Ns := ← percentileAt measured 90 100
      p95Ns := ← percentileAt measured 95 100
      p99Ns := ← percentileAt measured 99 100
      p99_9Ns := ← percentileAt measured 999 1000
      maximumNs := ← measured.getLast?
      positiveMeasuredEvents := positive }

/-! ### The paired benchmark in Java -/

namespace Java

structure Distribution where
  p50Nanos : Int64
  p90Nanos : Int64
  p95Nanos : Int64
  p99Nanos : Int64
  p99_9Nanos : Int64
  maximumNanos : Int64
  positiveMeasuredEvents : Int64

/-- The columns which the runner wants to be increasing. -/
def Distribution.metrics (d : Distribution) : List Int64 :=
  [d.p50Nanos, d.p90Nanos, d.p95Nanos, d.p99Nanos, d.p99_9Nanos, d.maximumNanos]

/-- `Math.toIntExact` -/
def toIntExact (value : Int64) : Option Int32 :=
  if value.toInt32.toInt64 = value then some value.toInt32 else none

/-- `Arrays.copyOfRange`, which fills up with zeros -/
def copyOfRange (original : List Int64) (first last : Int32) : Option (List Int64) :=
  if first > last ∨ first < 0 ∨ first.toInt > original.length then none
  else
    let copied := (original.take last.toNatClampNeg).drop first.toNatClampNeg
    some (copied ++ List.replicate ((last.toInt - first.toInt).toNat - copied.length) 0)

/-- An access to an array. -/
def get (array : List Int64) (index : Int32) : Option Int64 :=
  if index < 0 then none else array[index.toNatClampNeg]?

/-- The measured latency at a percentile. -/
def percentileAt (measured : List Int64) (numerator denominator : Int32) : Option Int64 :=
  get measured (percentileIndex (Int32.ofNat measured.length) numerator denominator)

def summarize (allSamples : List Int64) (warmupEvents : Int64) (total : Int32) :
    Option Distribution := do
  let first ← toIntExact warmupEvents
  let measured ← copyOfRange allSamples first total
  let measured := sorted measured
  let positive := Int64.ofNat (measured.countP (0 < ·))
  some
    { p50Nanos := ← percentileAt measured 50 100
      p90Nanos := ← percentileAt measured 90 100
      p95Nanos := ← percentileAt measured 95 100
      p99Nanos := ← percentileAt measured 99 100
      p99_9Nanos := ← percentileAt measured 999 1000
      maximumNanos := ← get measured (Int32.ofNat measured.length - 1)
      positiveMeasuredEvents := positive }

end Java

end PairedLatency

/-! ### The socket benchmark -/

namespace SocketLatency

def percentile (sorted : List UInt64) (numerator denominator : UInt64) :
    Except String (Option UInt64) :=
  if denominator = 0 ∨ numerator > denominator then .error "invalid percentile fraction"
  else .ok sorted[(percentileIndex (UInt64.ofNat sorted.length) numerator denominator).toNat]?

/-- The latencies of a result. -/
structure Latencies where
  minimumNs : UInt64
  p50Ns : UInt64
  p90Ns : UInt64
  p95Ns : UInt64
  p99Ns : UInt64
  p999Ns : UInt64
  maximumNs : UInt64

/-- The columns which the validators want to be increasing, but for the first. -/
def Latencies.metrics (l : Latencies) : List UInt64 :=
  [l.p50Ns, l.p90Ns, l.p95Ns, l.p99Ns, l.p999Ns, l.maximumNs]

/-- The latencies which `summarize` reports. -/
def summarize (samples : List UInt64) : Except String (Option Latencies) :=
  if samples = [] then .error "run completed without a latency sample"
  else do
    let samples := sorted samples
    let p50 ← percentile samples 50 100
    let p90 ← percentile samples 90 100
    let p95 ← percentile samples 95 100
    let p99 ← percentile samples 99 100
    let p999 ← percentile samples 999 1000
    .ok do
      some
        { minimumNs := ← samples.head?
          p50Ns := ← p50
          p90Ns := ← p90
          p95Ns := ← p95
          p99Ns := ← p99
          p999Ns := ← p999
          maximumNs := ← samples.getLast? }

end SocketLatency

/-! ### What is reported -/

namespace Percentiles

section Statistics

variable {α : Type} [LE α] [DecidableLE α]

/-- The value at a fraction of the values in increasing order. -/
def statistic (xs : List α) (f : Fraction) : Option α :=
  (sorted xs)[exactIndex xs.length f]?

/-- The values at the fractions which the benchmarks report, and the greatest value. -/
def Reported (xs values : List α) : Prop :=
  values.map some = reported.map (statistic xs) ++ [(sorted xs).getLast?]

/-- The metrics of samples: what is reported of them, increasing from the least sample on. -/
structure Metrics (xs : List α) (minimum : α) (values : List α) : Prop where
  reported : Reported xs values
  minimum_mem : minimum ∈ xs
  minimum_le : ∀ x ∈ xs, minimum ≤ x
  increasing : (minimum :: values).Pairwise (· ≤ ·)

/-- Out of samples in increasing order, `select` picks the one which has the index `index` in
it, whatever order the samples had. -/
def Selects (select : List α → Option α) (xs : List α) (index : ℕ) : Prop :=
  ∃ v, select (sorted xs) = some v ∧ IsStatistic xs index v
    ∧ ∀ ys : List α, ys.Perm xs → select (sorted ys) = some v

variable [Std.IsLinearOrder α] {xs ys values : List α}

theorem exists_statistic (hne : xs ≠ []) (f : Fraction) :
  ∃ v, statistic xs f = some v ∧ IsStatistic xs (exactIndex xs.length f) v
  := by
  have hlt : exactIndex xs.length f < (sorted xs).length := by
    rw [OrderStatistics.length_sorted]
    apply exactIndex_lt f (List.length_pos_iff.mpr hne)
  use (sorted xs)[exactIndex xs.length f], List.getElem?_eq_getElem hlt
  apply OrderStatistics.isStatistic_sorted hlt

theorem statistic_eq_of_perm (h : ys.Perm xs) (f : Fraction) : statistic ys f = statistic xs f := by
  rw [statistic, statistic, OrderStatistics.sorted_eq_of_perm h, h.length_eq]

/-- The indices of the least value, of the fractions and of the greatest value. -/
theorem pairwise_indices (size : ℕ) :
  (0 :: (reported.map (exactIndex size) ++ [size - 1])).Pairwise (· ≤ ·)
  := by
  have h₅₀ : exactIndex size p50 ≤ exactIndex size p90 := exactIndex_mono size (by decide)
  have h₉₀ : exactIndex size p90 ≤ exactIndex size p95 := exactIndex_mono size (by decide)
  have h₉₅ : exactIndex size p95 ≤ exactIndex size p99 := exactIndex_mono size (by decide)
  have h₉₉ : exactIndex size p99 ≤ exactIndex size p999 := exactIndex_mono size (by decide)
  have h₉₉₉ : exactIndex size p999 ≤ size - 1 := exactIndex_le p999 size
  simp only [reported, List.map_cons, List.map_nil, List.cons_append, List.nil_append,
    List.pairwise_cons, List.mem_cons, List.not_mem_nil, or_false, false_imp_iff, implies_true,
    true_and]
  refine ⟨?_, ?_, ?_, ?_, ?_, ?_, List.Pairwise.nil⟩
  all_goals
    intro index hindex
    omega

/-- The least value and what is reported increase. -/
theorem Reported.metrics (h : Reported xs values) (hne : xs ≠ []) :
  ∃ minimum, (sorted xs).head? = some minimum ∧ Metrics xs minimum values
  := by
  have hlength := OrderStatistics.length_sorted xs
  have hpos : 0 < (sorted xs).length := by
    rw [hlength]
    apply List.length_pos_iff.mpr hne
  have hsorted := OrderStatistics.pairwise_sorted xs
  have hhead : (sorted xs).head? = some (sorted xs)[0] := by
    rw [List.head?_eq_getElem?, List.getElem?_eq_getElem hpos]
  refine ⟨(sorted xs)[0], hhead, h, ?_, ?_, ?_⟩
  · apply (OrderStatistics.perm_sorted xs).mem_iff.mp
    apply List.getElem_mem
  · intro x hx
    obtain ⟨i, hi, rfl⟩ := List.getElem_of_mem ((OrderStatistics.perm_sorted xs).mem_iff.mpr hx)
    apply OrderStatistics.getElem_le_getElem hsorted (Nat.zero_le i)
  · apply OrderStatistics.pairwise_of_indices hsorted (pairwise_indices xs.length)
    rw [List.map_cons, h, List.map_cons, List.map_append, List.map_map, List.map_singleton,
      List.getElem?_eq_getElem hpos, List.getLast?_eq_getElem?, hlength]
    rfl

/-- What picks the values at a fraction does not depend on the order of the samples. -/
theorem selects_statistic {select : List α → Option α} (f : Fraction) (hne : xs ≠ [])
    (h : ∀ ys, ys ≠ [] → ys.length = xs.length → select (sorted ys) = statistic ys f) :
  Selects select xs (exactIndex xs.length f)
  := by
  obtain ⟨v, hv, hstatistic⟩ := exists_statistic hne f
  use v
  refine ⟨?_, hstatistic, ?_⟩
  · rw [h xs hne rfl, hv]
  · intro ys hperm
    have hys : ys ≠ [] := by
      rintro rfl
      apply hne hperm.nil_eq.symm
    rw [h ys hys hperm.length_eq, statistic_eq_of_perm hperm, hv]

/-- Everything that is reported of some samples is there. -/
theorem exists_reported (hne : xs ≠ []) :
  ∃ v₅₀ v₉₀ v₉₅ v₉₉ v₉₉₉ maximum, statistic xs p50 = some v₅₀ ∧ statistic xs p90 = some v₉₀
    ∧ statistic xs p95 = some v₉₅ ∧ statistic xs p99 = some v₉₉ ∧ statistic xs p999 = some v₉₉₉
    ∧ (sorted xs).getLast? = some maximum
    ∧ Reported xs [v₅₀, v₉₀, v₉₅, v₉₉, v₉₉₉, maximum]
  := by
  have hlast : (sorted xs).getLast? ≠ none := by
    rw [ne_eq, List.getLast?_eq_none_iff]
    intro hnil
    apply hne
    have hlength := OrderStatistics.length_sorted xs
    rw [hnil] at hlength
    apply List.eq_nil_of_length_eq_zero hlength.symm
  obtain ⟨v₅₀, h₅₀, -⟩ := exists_statistic hne p50
  obtain ⟨v₉₀, h₉₀, -⟩ := exists_statistic hne p90
  obtain ⟨v₉₅, h₉₅, -⟩ := exists_statistic hne p95
  obtain ⟨v₉₉, h₉₉, -⟩ := exists_statistic hne p99
  obtain ⟨v₉₉₉, h₉₉₉, -⟩ := exists_statistic hne p999
  obtain ⟨maximum, hmaximum⟩ := Option.ne_none_iff_exists'.mp hlast
  use v₅₀, v₉₀, v₉₅, v₉₉, v₉₉₉, maximum, h₅₀, h₉₀, h₉₅, h₉₉, h₉₉₉, hmaximum
  simp [Reported, reported, h₅₀, h₉₀, h₉₅, h₉₉, h₉₉₉, hmaximum]

end Statistics

section Benchmarks

variable {f : Fraction}

theorem percentileAt_sorted {xs : List Int64} (hne : xs ≠ []) (hlt : xs.length < 2 ^ 64) :
  PairedLatency.percentileAt (sorted xs) (UInt64.ofNat f.numerator) (UInt64.ofNat f.denominator)
    = statistic xs f
  := by
  rw [PairedLatency.percentileAt, OrderStatistics.length_sorted,
    toNat_percentileIndex f (List.length_pos_iff.mpr hne) hlt]
  rfl

/-- An access to an array at an index which is not negative. -/
theorem get_ofNat (array : List Int64) {index : ℕ} (h : index < 2 ^ 31) :
  PairedLatency.Java.get array (Int32.ofNat index) = array[index]?
  := by
  have hnonneg : ¬Int32.ofNat index < 0 := by
    rw [Int32.lt_iff_toInt_lt, Int32.toInt_ofNat_of_lt h]
    change ¬(index : ℤ) < 0
    omega
  rw [PairedLatency.Java.get, if_neg hnonneg, Int32.toNatClampNeg_ofNat_of_lt h]

theorem javaPercentileAt_sorted {xs : List Int64} (hne : xs ≠ []) (hlt : xs.length < 2 ^ 31) :
  PairedLatency.Java.percentileAt (sorted xs) (Int32.ofNat f.numerator)
      (Int32.ofNat f.denominator)
    = statistic xs f
  := by
  have hpos := List.length_pos_iff.mpr hne
  have hindex := exactIndex_lt f hpos
  rw [PairedLatency.Java.percentileAt, OrderStatistics.length_sorted,
    PairedLatency.Java.percentileIndex,
    splitIndex_ofNat f WordArithmetic.int32 hpos hlt (by decide), get_ofNat _ (by omega)]
  rfl

theorem percentile_sorted {xs : List UInt64} (hne : xs ≠ []) (hlt : xs.length < 2 ^ 32) :
  SocketLatency.percentile (sorted xs) (UInt64.ofNat f.numerator) (UInt64.ofNat f.denominator)
    = .ok (statistic xs f)
  := by
  have hle := f.denominator_le
  have hpos := f.denominator_pos
  have hnumerator := f.numerator_le
  have hdenominator : (UInt64.ofNat f.denominator).toNat = f.denominator := by
    rw [UInt64.toNat_ofNat']
    apply Nat.mod_eq_of_lt
    omega
  have hvalid : ¬(UInt64.ofNat f.denominator = 0 ∨
      UInt64.ofNat f.numerator > UInt64.ofNat f.denominator) := by
    rw [not_or, ← UInt64.toNat_inj, gt_iff_lt, UInt64.lt_iff_toNat_lt, hdenominator,
      UInt64.toNat_ofNat', Nat.mod_eq_of_lt (by omega)]
    constructor
    · change ¬f.denominator = 0
      omega
    · omega
  rw [SocketLatency.percentile, if_neg hvalid, OrderStatistics.length_sorted,
    toNat_socketPercentileIndex f (List.length_pos_iff.mpr hne) hlt]
  rfl

/-- Copying a range index by index. -/
theorem mapM_range' (samples : List Int64) {first count : ℕ} (h : first + count ≤ samples.length) :
  (List.range' first count).mapM (fun index => samples[index]?)
    = some ((samples.drop first).take count)
  := by
  induction count generalizing first with
  | zero => rfl
  | succ count ih =>
      have hfirst : first < samples.length := by omega
      rw [List.range'_succ, List.mapM_cons, ih (by omega), List.getElem?_eq_getElem hfirst,
        List.drop_eq_getElem_cons hfirst, List.take_succ_cons]
      rfl

/-- The summary in C++ of samples which are as many as the events. -/
theorem summarize_reported {samples : List Int64} {warmupEvents measuredEvents : UInt64}
    (hlength : samples.length = warmupEvents.toNat + measuredEvents.toNat)
    (hmeasured : 0 < measuredEvents.toNat) (hlt : samples.length < 2 ^ 64) :
  ∃ d, PairedLatency.summarize samples warmupEvents measuredEvents = some d
    ∧ Reported (samples.drop warmupEvents.toNat) d.metrics
  := by
  have htotal : (warmupEvents + measuredEvents).toNat - warmupEvents.toNat
      = measuredEvents.toNat := by
    rw [UInt64.toNat_add, ← hlength, Nat.mod_eq_of_lt hlt]
    omega
  have hcopied : (samples.drop warmupEvents.toNat).length = measuredEvents.toNat := by
    rw [List.length_drop]
    omega
  have htake : (samples.drop warmupEvents.toNat).take measuredEvents.toNat
      = samples.drop warmupEvents.toNat := List.take_of_length_le hcopied.le
  generalize hxs : samples.drop warmupEvents.toNat = xs at hcopied htake
  have hne : xs ≠ [] := by
    rintro rfl
    rw [List.length_nil] at hcopied
    omega
  have hat (f : Fraction) := percentileAt_sorted (f := f) hne (by omega)
  obtain ⟨v₅₀, v₉₀, v₉₅, v₉₉, v₉₉₉, maximum, h₅₀, h₉₀, h₉₅, h₉₉, h₉₉₉, hmaximum, hreported⟩ :=
    exists_reported hne
  have hat₅₀ : PairedLatency.percentileAt (sorted xs) 50 100 = some v₅₀ := (hat p50).trans h₅₀
  have hat₉₀ : PairedLatency.percentileAt (sorted xs) 90 100 = some v₉₀ := (hat p90).trans h₉₀
  have hat₉₅ : PairedLatency.percentileAt (sorted xs) 95 100 = some v₉₅ := (hat p95).trans h₉₅
  have hat₉₉ : PairedLatency.percentileAt (sorted xs) 99 100 = some v₉₉ := (hat p99).trans h₉₉
  have hat₉₉₉ : PairedLatency.percentileAt (sorted xs) 999 1000 = some v₉₉₉ :=
    (hat p999).trans h₉₉₉
  simp only [PairedLatency.summarize, htotal, mapM_range' samples hlength.ge, hxs, htake, hat₅₀,
    hat₉₀, hat₉₅, hat₉₉, hat₉₉₉, hmaximum, Option.bind_eq_bind, Option.bind_some]
  refine ⟨_, rfl, hreported⟩

theorem toIntExact_ofNat {value : ℕ} (h : value < 2 ^ 31) :
  PairedLatency.Java.toIntExact (Int64.ofNat value) = some (Int32.ofNat value)
  := by
  have hword : (Int64.ofNat value).toInt32 = Int32.ofNat value := Int64.toInt32_ofNat'
  have hback : (Int32.ofNat value).toInt64 = Int64.ofNat value := by
    rw [← Int64.toInt_inj, Int32.toInt_toInt64, Int32.toInt_ofNat_of_lt h,
      Int64.toInt_ofNat_of_lt (by omega)]
  rw [PairedLatency.Java.toIntExact, hword, if_pos hback]

/-- Copying the end of an array. -/
theorem copyOfRange_ofNat (original : List Int64) {first : ℕ} (hle : first ≤ original.length)
    (hlt : original.length < 2 ^ 31) :
  PairedLatency.Java.copyOfRange original (Int32.ofNat first) (Int32.ofNat original.length)
    = some (original.drop first)
  := by
  have hfirst : (Int32.ofNat first).toInt = first := Int32.toInt_ofNat_of_lt (by omega)
  have hlast : (Int32.ofNat original.length).toInt = original.length :=
    Int32.toInt_ofNat_of_lt hlt
  have hzero : (0 : Int32).toInt = 0 := rfl
  have hrange : ¬(Int32.ofNat first > Int32.ofNat original.length ∨ Int32.ofNat first < 0 ∨
      (Int32.ofNat first).toInt > original.length) := by
    rw [gt_iff_lt, Int32.lt_iff_toInt_lt, Int32.lt_iff_toInt_lt, hfirst, hlast, hzero]
    omega
  have hcopied : (original.drop first).length = original.length - first := List.length_drop
  have hpadding : ((original.length : ℤ) - first).toNat - (original.length - first) = 0 := by
    omega
  rw [PairedLatency.Java.copyOfRange, if_neg hrange, Int32.toNatClampNeg_ofNat_of_lt hlt,
    Int32.toNatClampNeg_ofNat_of_lt (by omega), List.take_length, hfirst, hlast]
  simp only [hcopied, hpadding, List.replicate_zero, List.append_nil]

/-- The summary in Java of samples which are as many as the events. -/
theorem javaSummarize_reported {allSamples : List Int64} {warmupEvents : ℕ}
    (hwarmup : warmupEvents < allSamples.length) (hlt : allSamples.length < 2 ^ 31) :
  ∃ d, PairedLatency.Java.summarize allSamples (Int64.ofNat warmupEvents)
      (Int32.ofNat allSamples.length) = some d
    ∧ Reported (allSamples.drop warmupEvents) d.metrics
  := by
  have hcopied : (allSamples.drop warmupEvents).length = allSamples.length - warmupEvents :=
    List.length_drop
  have hcopy := copyOfRange_ofNat allSamples hwarmup.le hlt
  generalize allSamples.drop warmupEvents = xs at hcopied hcopy
  have hne : xs ≠ [] := by
    rintro rfl
    rw [List.length_nil] at hcopied
    omega
  have hat (f : Fraction) := javaPercentileAt_sorted (f := f) hne (by omega)
  obtain ⟨v₅₀, v₉₀, v₉₅, v₉₉, v₉₉₉, maximum, h₅₀, h₉₀, h₉₅, h₉₉, h₉₉₉, hmaximum, hreported⟩ :=
    exists_reported hne
  have hat₅₀ : PairedLatency.Java.percentileAt (sorted xs) 50 100 = some v₅₀ :=
    (hat p50).trans h₅₀
  have hat₉₀ : PairedLatency.Java.percentileAt (sorted xs) 90 100 = some v₉₀ :=
    (hat p90).trans h₉₀
  have hat₉₅ : PairedLatency.Java.percentileAt (sorted xs) 95 100 = some v₉₅ :=
    (hat p95).trans h₉₅
  have hat₉₉ : PairedLatency.Java.percentileAt (sorted xs) 99 100 = some v₉₉ :=
    (hat p99).trans h₉₉
  have hat₉₉₉ : PairedLatency.Java.percentileAt (sorted xs) 999 1000 = some v₉₉₉ :=
    (hat p999).trans h₉₉₉
  have hlast : PairedLatency.Java.get (sorted xs) (Int32.ofNat (sorted xs).length - 1)
      = some maximum := by
    have hpos := List.length_pos_iff.mpr hne
    rw [← WordArithmetic.int32.one, OrderStatistics.length_sorted,
      WordArithmetic.int32.sub _ _ hpos, get_ofNat _ (by omega), ← hmaximum,
      List.getLast?_eq_getElem?, OrderStatistics.length_sorted]
  simp only [PairedLatency.Java.summarize, toIntExact_ofNat (hwarmup.trans hlt), hcopy, hat₅₀,
    hat₉₀, hat₉₅, hat₉₉, hat₉₉₉, hlast, Option.bind_eq_bind, Option.bind_some]
  refine ⟨_, rfl, hreported⟩

/-- The summary of the socket benchmark. -/
theorem socketSummarize_reported {samples : List UInt64} (hne : samples ≠ [])
    (hlt : samples.length < 2 ^ 32) :
  ∃ l, SocketLatency.summarize samples = .ok (some l)
    ∧ Metrics samples l.minimumNs l.metrics
  := by
  have hat (f : Fraction) := percentile_sorted (f := f) hne hlt
  obtain ⟨v₅₀, v₉₀, v₉₅, v₉₉, v₉₉₉, maximum, h₅₀, h₉₀, h₉₅, h₉₉, h₉₉₉, hmaximum, hreported⟩ :=
    exists_reported hne
  obtain ⟨minimum, hminimum, hmetrics⟩ := hreported.metrics hne
  have hat₅₀ : SocketLatency.percentile (sorted samples) 50 100 = .ok (some v₅₀) := by
    rw [← h₅₀]
    apply hat p50
  have hat₉₀ : SocketLatency.percentile (sorted samples) 90 100 = .ok (some v₉₀) := by
    rw [← h₉₀]
    apply hat p90
  have hat₉₅ : SocketLatency.percentile (sorted samples) 95 100 = .ok (some v₉₅) := by
    rw [← h₉₅]
    apply hat p95
  have hat₉₉ : SocketLatency.percentile (sorted samples) 99 100 = .ok (some v₉₉) := by
    rw [← h₉₉]
    apply hat p99
  have hat₉₉₉ : SocketLatency.percentile (sorted samples) 999 1000 = .ok (some v₉₉₉) := by
    rw [← h₉₉₉]
    apply hat p999
  rw [SocketLatency.summarize, if_neg hne]
  simp only [hat₅₀, hat₉₀, hat₉₅, hat₉₉, hat₉₉₉, hmaximum, hminimum, bind, Except.bind,
    Option.bind_some]
  refine ⟨_, rfl, hmetrics⟩

end Benchmarks

/-- The selection of percentiles is exact. For every size that the callers admit, the three
formulas give the fraction of the last index, rounded down, and no value of them leaves its
word; the value selected is the one of that index in increasing order, in whatever order the
samples come; and all summaries report the same values, which increase. -/
theorem percentiles_exact :
  (∀ (f : Fraction) (size : ℕ), 0 < size →
      exactIndex size f < size
      ∧ (size < 2 ^ 64 →
          (PairedLatency.percentileIndex (UInt64.ofNat size) (UInt64.ofNat f.numerator)
            (UInt64.ofNat f.denominator)).toNat = exactIndex size f
          ∧ ∀ x ∈ splitIntermediates size f, x < 2 ^ 64)
      ∧ (size < 2 ^ 31 →
          (PairedLatency.Java.percentileIndex (Int32.ofNat size) (Int32.ofNat f.numerator)
            (Int32.ofNat f.denominator)).toInt = exactIndex size f
          ∧ ∀ x ∈ splitIntermediates size f, x < 2 ^ 31)
      ∧ (size < 2 ^ 32 →
          (SocketLatency.percentileIndex (UInt64.ofNat size) (UInt64.ofNat f.numerator)
            (UInt64.ofNat f.denominator)).toNat = exactIndex size f
          ∧ (size - 1) * f.numerator < 2 ^ 64))
    ∧ (∀ (f : Fraction) (xs : List Int64), xs ≠ [] →
        (xs.length < 2 ^ 64 →
          Selects (PairedLatency.percentileAt · (UInt64.ofNat f.numerator)
            (UInt64.ofNat f.denominator)) xs (exactIndex xs.length f))
        ∧ (xs.length < 2 ^ 31 →
          Selects (PairedLatency.Java.percentileAt · (Int32.ofNat f.numerator)
            (Int32.ofNat f.denominator)) xs (exactIndex xs.length f)))
    ∧ (∀ (f : Fraction) (xs : List UInt64), xs ≠ [] → xs.length < 2 ^ 32 →
        Selects (fun sorted => (SocketLatency.percentile sorted (UInt64.ofNat f.numerator)
          (UInt64.ofNat f.denominator)).toOption.join) xs (exactIndex xs.length f))
    ∧ (∀ (samples : List Int64) (warmupEvents measuredEvents : UInt64),
        samples.length = warmupEvents.toNat + measuredEvents.toNat → 0 < measuredEvents.toNat →
        samples.length < 2 ^ 64 →
        ∃ d minimum, PairedLatency.summarize samples warmupEvents measuredEvents = some d
          ∧ Metrics (samples.drop warmupEvents.toNat) minimum d.metrics)
    ∧ (∀ (allSamples : List Int64) (warmupEvents : ℕ),
        warmupEvents < allSamples.length → allSamples.length < 2 ^ 31 →
        ∃ d minimum, PairedLatency.Java.summarize allSamples (Int64.ofNat warmupEvents)
            (Int32.ofNat allSamples.length) = some d
          ∧ Metrics (allSamples.drop warmupEvents) minimum d.metrics)
    ∧ ∀ samples : List UInt64, samples ≠ [] → samples.length < 2 ^ 32 →
        ∃ l, SocketLatency.summarize samples = .ok (some l)
          ∧ Metrics samples l.minimumNs l.metrics
  := by
  refine ⟨?_, ?_, ?_, ?_, ?_, ?_⟩
  · intro f size hsize
    refine ⟨exactIndex_lt f hsize, ?_, ?_, ?_⟩
    · intro hlt
      use toNat_percentileIndex f hsize hlt
      apply splitIntermediates_lt f hsize hlt.le (by decide)
    · intro hlt
      use toInt_percentileIndex f hsize hlt
      apply splitIntermediates_lt f hsize hlt.le (by decide)
    · intro hlt
      use toNat_socketPercentileIndex f hsize hlt
      apply directProduct_lt f hlt
  · intro f xs hne
    constructor
    · intro hlt
      apply selects_statistic f hne
      intro ys hys hlength
      apply percentileAt_sorted hys (by omega)
    · intro hlt
      apply selects_statistic f hne
      intro ys hys hlength
      apply javaPercentileAt_sorted hys (by omega)
  · intro f xs hne hlt
    apply selects_statistic f hne
    intro ys hys hlength
    rw [percentile_sorted hys (by omega)]
    rfl
  · intro samples warmupEvents measuredEvents hlength hmeasured hlt
    obtain ⟨d, hd, hreported⟩ := summarize_reported hlength hmeasured hlt
    have hne : samples.drop warmupEvents.toNat ≠ [] := by
      rw [ne_eq, List.drop_eq_nil_iff]
      omega
    obtain ⟨minimum, -, hmetrics⟩ := hreported.metrics hne
    use d, minimum, hd
  · intro allSamples warmupEvents hwarmup hlt
    obtain ⟨d, hd, hreported⟩ := javaSummarize_reported hwarmup hlt
    have hne : allSamples.drop warmupEvents ≠ [] := by
      rw [ne_eq, List.drop_eq_nil_iff]
      omega
    obtain ⟨minimum, -, hmetrics⟩ := hreported.metrics hne
    use d, minimum, hd
  · intro samples hne hlt
    apply socketSummarize_reported hne hlt

end Percentiles
