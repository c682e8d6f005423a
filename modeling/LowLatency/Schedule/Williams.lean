import LowLatency.Library.DirectedTerrace
import LowLatency.SocketLatency.Configuration
import Mathlib.Algebra.Group.Nat.Even
import Mathlib.Data.List.Perm.Subperm
import Mathlib.Data.List.Range

/-!
# Williams orders

The order in which the socket benchmark and the tournament runner visit their workloads. The
first row zigzags through the residues, `0, 1, n - 1, 2, n - 2, …`, and each run shifts it by
one. The entries are a directed terrace of the residues, so every `n` consecutive runs balance
positions and predecessors.
-/

/-! ### The socket benchmark -/

namespace SocketLatency

/-- What `williams_first_row` pushes at a position. -/
def williamsEntry (width position : ℕ) : ℕ :=
  if position = 0 then 0
  else if position % 2 ≠ 0 then (position + 1) / 2
  else width - position / 2

/-- The first row, or the text of the exception. -/
def williamsFirstRow (width : ℕ) : Except String (List ℕ) :=
  if width = 0 ∨ (width > 1 ∧ width % 2 ≠ 0) then
    .error "Williams ordering requires one or an even workload count"
  else
    .ok ((List.range width).map (williamsEntry width))

structure Workload where
  selectedProtocol : Protocol
  payloadBytes : ℕ
  deriving DecidableEq

/-- An absent filter selects everything. -/
def selects {α : Type} [DecidableEq α] (filter : Option α) (x : α) : Bool :=
  filter.isNone || filter == some x

/-- The workloads of `main`. -/
def canonicalWorkloads (payloadFilter : Option ℕ) (protocolFilter : Option Protocol) :
    List Workload :=
  payloadSizes.flatMap fun payloadBytes =>
    (if selects payloadFilter payloadBytes && selects protocolFilter .tcp then
      [⟨.tcp, payloadBytes⟩] else []) ++
    (if selects payloadFilter payloadBytes && selects protocolFilter .udp then
      [⟨.udp, payloadBytes⟩] else [])

/-- The indices of the workloads of a run in the order of `main`, whose sum is a `size_t`. -/
def runOrder (width : ℕ) (workloadOrder : List ℕ) (run : ℕ) : List ℕ :=
  workloadOrder.map fun entry => (entry + run) % 2 ^ 64 % width

end SocketLatency

/-! ### The tournament runner -/

namespace ProfileTournament

/-- What `williams_first_row` appends at a position. -/
def williamsEntry (width position : ℕ) : ℕ :=
  if position = 0 then 0
  else if position % 2 ≠ 0 then (position + 1) / 2
  else width - position / 2

/-- The first row, or the text of the exception. -/
def williamsFirstRow (width : ℕ) : Except String (List ℕ) :=
  if width = 1 then .ok [0]
  else if width = 0 ∨ width % 2 ≠ 0 then
    .error "Williams ordering requires one or an even width"
  else
    .ok ((List.range width).map (williamsEntry width))

/-- The indices of the conditions of a run in the order of `main`. -/
def runOrder (width : ℕ) (firstRow : List ℕ) (macroRun : ℕ) : List ℕ :=
  firstRow.map fun baseIndex => (baseIndex + macroRun) % width

end ProfileTournament

namespace Williams

open SocketLatency (williamsEntry)
open ProfileTournament (runOrder)

variable {n : ℕ}

/-! ### The zigzag -/

theorem williamsEntry_lt (h : 0 < n) {position : ℕ} (hposition : position < n) :
  williamsEntry n position < n
  := by
  unfold williamsEntry
  split_ifs <;> omega

/-- The entries at odd positions rise to the middle, and those at even positions fall to it. -/
theorem williamsEntry_injOn (heven : Even n) : Set.InjOn (williamsEntry n) (Set.Iio n) := by
  intro p hp q hq heq
  obtain ⟨half, rfl⟩ := heven
  rw [Set.mem_Iio] at hp hq
  unfold williamsEntry at heq
  split_ifs at heq <;> omega

/-- The step from a position to the next one, as a residue. -/
def zigzagStep (n position : ℕ) : ℕ :=
  if position % 2 = 0 then position + 1 else n - (position + 1)

theorem zigzagStep_lt {position : ℕ} (h : position + 1 < n) : zigzagStep n position < n := by
  unfold zigzagStep
  split_ifs <;> omega

/-- The steps are odd from the even positions and even from the odd ones. -/
theorem zigzagStep_injOn (heven : Even n) : Set.InjOn (zigzagStep n) (Set.Iio (n - 1)) := by
  intro p hp q hq heq
  obtain ⟨half, rfl⟩ := heven
  rw [Set.mem_Iio] at hp hq
  unfold zigzagStep at heq
  split_ifs at heq <;> omega

theorem williamsEntry_succ {position : ℕ} (h : position + 1 < n) :
  williamsEntry n position + zigzagStep n position = williamsEntry n (position + 1) ∨
    williamsEntry n position + zigzagStep n position = williamsEntry n (position + 1) + n
  := by
  unfold williamsEntry zigzagStep
  rw [if_neg (Nat.succ_ne_zero position)]
  split_ifs <;> omega

/-- The entry at a position, as a residue. -/
def residue (n position : ℕ) : ZMod n := williamsEntry n position

theorem difference_residue {position : ℕ} (h : position + 1 < n) :
  difference (residue n) position = zigzagStep n position
  := by
  rw [difference, residue, residue, sub_eq_iff_eq_add', ← Nat.cast_add]
  cases williamsEntry_succ h with
  | inl hsucc => rw [hsucc]
  | inr hsucc => rw [hsucc, Nat.cast_add, ZMod.natCast_self, add_zero]

/-- Numbers below the modulus are equal when their residues are. -/
theorem eq_of_natCast_eq {a b : ℕ} (ha : a < n) (hb : b < n) (h : (a : ZMod n) = b) : a = b := by
  rw [← ZMod.val_cast_of_lt ha, h, ZMod.val_cast_of_lt hb]

theorem directedTerrace [NeZero n] (heven : Even n) : DirectedTerrace (residue n) n := by
  have hpos : 0 < n := Nat.pos_of_neZero n
  constructor
  · apply ZMod.card
  · intro p hp q hq heq
    apply williamsEntry_injOn heven hp hq
    apply eq_of_natCast_eq (williamsEntry_lt hpos hp) (williamsEntry_lt hpos hq) heq
  · intro p hp q hq heq
    rw [Set.mem_Iio] at hp hq
    rw [difference_residue (by omega), difference_residue (by omega)] at heq
    apply zigzagStep_injOn heven (Set.mem_Iio.mpr hp) (Set.mem_Iio.mpr hq)
    apply eq_of_natCast_eq (zigzagStep_lt (by omega)) (zigzagStep_lt (by omega)) heq

/-! ### The balance of the runs -/

/-- Over any `width` consecutive runs every workload is at every position once, and every
ordered pair of distinct workloads is once at a position and the next one. -/
structure Balanced (width : ℕ) (order : ℕ → List ℕ) : Prop where
  positions : ∀ start position workload, position < width → workload < width →
    ∃! run, (start ≤ run ∧ run < start + width) ∧ (order run)[position]? = some workload
  neighbours : ∀ start a b, a < width → b < width → a ≠ b →
    ∃! x : ℕ × ℕ, (start ≤ x.1 ∧ x.1 < start + width) ∧
      (order x.1)[x.2]? = some a ∧ (order x.1)[x.2 + 1]? = some b

/-- The workload at a position of a run is known by its residue. -/
theorem getElem?_runOrder_eq_some_iff [NeZero n] {run position workload : ℕ} (h : workload < n) :
  (runOrder n ((List.range n).map (williamsEntry n)) run)[position]? = some workload ↔
    position < n ∧ residue n position + run = workload
  := by
  have hpos : 0 < n := Nat.pos_of_neZero n
  have hresidue : (williamsEntry n position + run) % n = workload ↔
      residue n position + run = workload := by
    rw [residue, ← Nat.cast_add, ZMod.natCast_eq_natCast_iff', Nat.mod_eq_of_lt h]
  rw [runOrder, List.map_map, List.getElem?_map]
  by_cases hposition : position < n
  · rw [List.getElem?_range hposition, Option.map_some, Option.some_inj, ← hresidue]
    simp [hposition]
  · rw [List.getElem?_eq_none (by simpa using hposition)]
    simp [hposition]

/-- The run in a window is known by its residue. -/
theorem existsUnique_run [NeZero n] (start : ℕ) {P : ZMod n → Prop} (h : ∃! g, P g) :
  ∃! run : ℕ, (start ≤ run ∧ run < start + n) ∧ P run
  := by
  obtain ⟨g, hg, hunique⟩ := h
  obtain ⟨run, ⟨hstart, hend, rfl⟩, hrun⟩ := ZMod.existsUnique_window start g
  use run
  constructor
  · use ⟨hstart, hend⟩
  · rintro run' ⟨⟨hstart', hend'⟩, hP⟩
    apply hrun run' ⟨hstart', hend', hunique _ hP⟩

theorem balanced_runOrder [NeZero n] (heven : Even n) :
  Balanced n (runOrder n ((List.range n).map (williamsEntry n)))
  := by
  constructor
  · intro start position workload hposition hworkload
    simp only [getElem?_runOrder_eq_some_iff hworkload, hposition, true_and]
    apply existsUnique_run start (P := fun g : ZMod n => residue n position + g = workload)
    apply DirectedTerrace.existsUnique_translate
  · intro start a b ha hb hab
    have hne : (a : ZMod n) ≠ b := fun heq => hab (eq_of_natCast_eq ha hb heq)
    obtain ⟨⟨g, position⟩, ⟨hposition, hneighbours⟩, hunique⟩ :=
      (directedTerrace heven).existsUnique_neighbours hne
    obtain ⟨run, ⟨hstart, hend, rfl⟩, hrun⟩ := ZMod.existsUnique_window start g
    use (run, position)
    simp only [getElem?_runOrder_eq_some_iff ha, getElem?_runOrder_eq_some_iff hb]
    constructor
    · use ⟨hstart, hend⟩, ⟨by omega, hneighbours.1⟩, hposition, hneighbours.2
    · rintro ⟨run', position'⟩ ⟨⟨hstart', hend'⟩, ⟨hlt, hfirst⟩, hposition', hsecond⟩
      have heq := hunique (run', position') ⟨hposition', hfirst, hsecond⟩
      obtain ⟨hg, rfl⟩ := Prod.mk.inj heq
      rw [hrun run' ⟨hstart', hend', hg⟩]

theorem perm_range (heven : Even n) :
  ((List.range n).map (williamsEntry n)).Perm (List.range n)
  := by
  have hnodup : ((List.range n).map (williamsEntry n)).Nodup := by
    apply List.Nodup.map_on _ List.nodup_range
    intro p hp q hq
    rw [List.mem_range] at hp hq
    apply williamsEntry_injOn heven hp hq
  have hsubset : (List.range n).map (williamsEntry n) ⊆ List.range n := by
    intro w hw
    obtain ⟨position, hposition, rfl⟩ := List.mem_map.mp hw
    rw [List.mem_range] at hposition ⊢
    apply williamsEntry_lt (by omega) hposition
  apply (hnodup.subperm hsubset).perm_of_length_le
  rw [List.length_map]

/-! ### The two implementations -/

theorem eq_ok_iff {ε α : Type} {x : Except ε α} {a : α} : x = .ok a ↔ x.toOption = some a := by
  cases x <;> simp [Except.toOption]

theorem exists_eq_error_iff {ε α : Type} {x : Except ε α} :
  (∃ e, x = .error e) ↔ x.toOption = none
  := by
  cases x <;> simp [Except.toOption]

theorem williamsFirstRow_eq (width : ℕ) :
  (SocketLatency.williamsFirstRow width).toOption =
    (ProfileTournament.williamsFirstRow width).toOption
  := by
  unfold SocketLatency.williamsFirstRow ProfileTournament.williamsFirstRow
  by_cases hone : width = 1
  · subst hone
    rfl
  · rw [if_neg hone]
    by_cases hreject : width = 0 ∨ width % 2 ≠ 0
    · rw [if_pos hreject, if_pos (by omega)]
      rfl
    · rw [if_neg hreject, if_neg (by omega)]
      rfl

theorem williamsFirstRow_of_even (h : 2 ≤ n) (heven : Even n) :
  SocketLatency.williamsFirstRow n = .ok ((List.range n).map (williamsEntry n))
  := by
  obtain ⟨half, rfl⟩ := heven
  rw [SocketLatency.williamsFirstRow, if_neg (by omega)]

theorem williamsFirstRow_rejects_iff (width : ℕ) :
  (SocketLatency.williamsFirstRow width).toOption = none ↔ width = 0 ∨ 1 < width ∧ Odd width
  := by
  rw [SocketLatency.williamsFirstRow, Nat.odd_iff]
  by_cases hreject : width = 0 ∨ (width > 1 ∧ width % 2 ≠ 0)
  · rw [if_pos hreject]
    simp only [Except.toOption, true_iff]
    omega
  · rw [if_neg hreject]
    simp only [Except.toOption, reduceCtorEq, false_iff]
    omega

/-- The `size_t` sums of `main` cannot be told from exact ones when the width divides `2 ^ 64`. -/
theorem runOrder_eq_of_dvd {width : ℕ} (h : width ∣ 2 ^ 64) (workloadOrder : List ℕ) (run : ℕ) :
  SocketLatency.runOrder width workloadOrder run = runOrder width workloadOrder run
  := by
  simp only [SocketLatency.runOrder, runOrder, Nat.mod_mod_of_dvd _ h]

/-- The filters leave one, two, four or eight workloads, or none. -/
theorem length_canonicalWorkloads (payloadFilter : Option ℕ)
    (protocolFilter : Option SocketLatency.Protocol) :
  (SocketLatency.canonicalWorkloads payloadFilter protocolFilter).length = 0 ∨
    (SocketLatency.canonicalWorkloads payloadFilter protocolFilter).length ∣ 2 ^ 64
  := by
  cases payloadFilter with
  | none =>
      right
      rcases protocolFilter with _ | _ | _ <;> decide
  | some payloadBytes =>
      by_cases hmem : payloadBytes ∈ SocketLatency.payloadSizes
      · right
        fin_cases hmem <;> rcases protocolFilter with _ | _ | _ <;> decide
      · left
        rw [SocketLatency.canonicalWorkloads, List.length_flatMap, List.sum_eq_zero]
        intro k hk
        obtain ⟨size, hsize, rfl⟩ := List.mem_map.mp hk
        have hne : payloadBytes ≠ size := fun heq => hmem (heq ▸ hsize)
        simp [SocketLatency.selects, hne]

/-! ### The schedule -/

/-- For every even width the first row is a permutation whose shifts are balanced, `main` visits
its workloads in these shifts, and both implementations give the same row and reject the same
widths. -/
theorem schedule_balanced :
  (∀ n, 2 ≤ n → Even n → ∃ first, SocketLatency.williamsFirstRow n = .ok first ∧
    ProfileTournament.williamsFirstRow n = .ok first ∧
    first.Perm (List.range n) ∧ Balanced n (runOrder n first)) ∧
  (∀ payloadFilter protocolFilter first, SocketLatency.williamsFirstRow
      (SocketLatency.canonicalWorkloads payloadFilter protocolFilter).length = .ok first →
    SocketLatency.runOrder
      (SocketLatency.canonicalWorkloads payloadFilter protocolFilter).length first =
    runOrder (SocketLatency.canonicalWorkloads payloadFilter protocolFilter).length first) ∧
  (∀ width first, SocketLatency.williamsFirstRow width = .ok first ↔
    ProfileTournament.williamsFirstRow width = .ok first) ∧
  (∀ width, (∃ e, SocketLatency.williamsFirstRow width = .error e) ↔
    width = 0 ∨ 1 < width ∧ Odd width) ∧
  (∀ width, (∃ e, ProfileTournament.williamsFirstRow width = .error e) ↔
    width = 0 ∨ 1 < width ∧ Odd width)
  := by
  have hagree : ∀ width first, SocketLatency.williamsFirstRow width = .ok first ↔
      ProfileTournament.williamsFirstRow width = .ok first := by
    intro width first
    rw [eq_ok_iff, eq_ok_iff, williamsFirstRow_eq]
  constructor
  · intro n hn heven
    have : NeZero n := ⟨by omega⟩
    use (List.range n).map (williamsEntry n)
    have hrow := williamsFirstRow_of_even hn heven
    use hrow, (hagree n _).mp hrow, perm_range heven
    apply balanced_runOrder heven
  · constructor
    · intro payloadFilter protocolFilter first hrow
      funext run
      cases length_canonicalWorkloads payloadFilter protocolFilter with
      | inl hzero =>
          rw [hzero] at hrow
          cases hrow
      | inr hdvd => apply runOrder_eq_of_dvd hdvd
    · use hagree
      constructor
      · intro width
        rw [exists_eq_error_iff, williamsFirstRow_rejects_iff]
      · intro width
        rw [exists_eq_error_iff, ← williamsFirstRow_eq, williamsFirstRow_rejects_iff]

example : SocketLatency.williamsFirstRow 8 = .ok [0, 1, 7, 2, 6, 3, 5, 4] := by decide

end Williams
