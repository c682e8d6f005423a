import LowLatency.Library.Raising
import LowLatency.Schedule.Williams
import Mathlib.Data.Int.CardIntervalMod
import Mathlib.Data.List.GetD
import Mathlib.Data.List.ProdSigma

/-!
# The tournament

The rows that the tournament runner takes: run `r` visits the conditions in the Williams order
shifted by `r`. Every run visits every condition once, and over a multiple of the width every
condition is at every position equally often.
-/

namespace ProfileTournament

/-! ### Generation -/

/-- A profile and a payload size. -/
abbrev Condition := String × ℤ

/-- The conditions of a tournament, by payload and then by profile. -/
def conditions (profiles : List String) (payloads : List ℤ) : List Condition :=
  payloads.flatMap fun payload => profiles.map fun profile => (profile, payload)

/-- The run and the position of a row, and the condition it was taken under. -/
structure Placement where
  macroRun : ℤ
  tournamentPosition : ℤ
  condition : Condition
  deriving DecidableEq

/-- The condition with the index `(base_index + macro_run) % width`, which is always one. -/
def scheduled (conditions : List Condition) (baseIndex macroRun : ℕ) : Condition :=
  conditions.getD ((baseIndex + macroRun) % conditions.length) ("", 0)

/-- The row that `main` takes for an entry of the first row and its position. -/
def placed (conditions : List Condition) (macroRun : ℕ) : ℕ × ℕ → Placement
  | (baseIndex, position) => ⟨macroRun + 1, position + 1, scheduled conditions baseIndex macroRun⟩

/-- The rows that `main` takes in a run. -/
def runPlacements (conditions : List Condition) (firstRow : List ℕ) (macroRun : ℕ) :
    List Placement :=
  firstRow.zipIdx.map (placed conditions macroRun)

/-- The rows that `main` takes. -/
def placements (conditions : List Condition) (firstRow : List ℕ) (observations : ℕ) :
    List Placement :=
  (List.range observations).flatMap (runPlacements conditions firstRow)

/-- The rows that `main` takes, or the text of the exception. -/
def generate (profiles : List String) (payloads : List ℤ) (observations : ℕ) :
    Except String (List Placement) := do
  let firstRow ← williamsFirstRow (conditions profiles payloads).length
  return placements (conditions profiles payloads) firstRow observations

/-- The arguments of a tournament, as `parse_args` accepts them: the observations are a
multiple of the width, which is one or even. -/
structure Design (profiles : List String) (payloads : List ℤ) (observations : ℕ) : Prop where
  nodupProfiles : profiles.Nodup
  nodupPayloads : payloads.Nodup
  width : (conditions profiles payloads).length = 1 ∨ Even (conditions profiles payloads).length
  positive : 0 < observations
  multiple : (conditions profiles payloads).length ∣ observations

namespace Design

variable {profiles : List String} {payloads : List ℤ} {observations : ℕ}

theorem nodup_conditions (h : Design profiles payloads observations) :
  (conditions profiles payloads).Nodup
  := by
  have hproduct : conditions profiles payloads = (payloads ×ˢ profiles).map Prod.swap := by
    simp only [conditions, SProd.sprod, List.product, List.map_flatMap, List.map_map]
    rfl
  rw [hproduct]
  apply (h.nodupPayloads.product h.nodupProfiles).map Prod.swap_injective

theorem width_pos (h : Design profiles payloads observations) :
  0 < (conditions profiles payloads).length
  := Nat.pos_of_dvd_of_pos h.multiple h.positive

/-- The first row of a design is a permutation of the indices. -/
theorem exists_firstRow (h : Design profiles payloads observations) :
  ∃ firstRow, williamsFirstRow (conditions profiles payloads).length = .ok firstRow ∧
    firstRow.Perm (List.range (conditions profiles payloads).length)
  := by
  have hpos := h.width_pos
  cases h.width with
  | inl hone =>
      rw [hone]
      use [0], rfl
      rfl
  | inr heven =>
      use (List.range (conditions profiles payloads).length).map
        (williamsEntry (conditions profiles payloads).length)
      obtain ⟨half, hhalf⟩ := heven
      constructor
      · rw [williamsFirstRow, if_neg (by omega), if_neg (by omega)]
      · apply Williams.perm_range ⟨half, hhalf⟩

end Design

/-! ### Windows of runs -/

/-- An index follows a base index in one run of each window. -/
theorem count_shift {width index : ℕ} (h : index < width) (baseIndex : ℕ) {observations : ℕ}
    (hmultiple : width ∣ observations) :
  observations.count (fun run => (baseIndex + run) % width = index) = observations / width
  := by
  have hpos : 0 < width := by omega
  let first := index + (width - baseIndex % width)
  have hfirst : (baseIndex + first) % width = index := by
    have hwhole : baseIndex + first = index + width * (baseIndex / width + 1) := by
      have hdiv := Nat.div_add_mod baseIndex width
      have hmod := Nat.mod_lt baseIndex hpos
      rw [Nat.mul_add, Nat.mul_one]
      omega
    rw [hwhole, Nat.add_mul_mod_self_left, Nat.mod_eq_of_lt h]
  have hcongruent : ∀ run, (baseIndex + run) % width = index ↔ run ≡ first [MOD width] := by
    intro run
    constructor
    · intro hrun
      apply Nat.ModEq.add_left_cancel' baseIndex
      rw [Nat.ModEq, hrun, hfirst]
    · intro hrun
      rw [← hfirst]
      apply hrun.add_left baseIndex
  simp only [hcongruent]
  rw [Nat.count_modEq_card _ hpos, Nat.mod_eq_zero_of_dvd hmultiple, if_neg (Nat.not_lt_zero _),
    Nat.add_zero]

/-! ### The rows of a run -/

section Rows

variable {conditions : List Condition} {firstRow : List ℕ} {macroRun : ℕ}

theorem mem_runPlacements {placement : Placement} :
  placement ∈ runPlacements conditions firstRow macroRun ↔
    ∃ baseIndex position : ℕ, firstRow[position]? = some baseIndex ∧
      placement = ⟨macroRun + 1, position + 1, scheduled conditions baseIndex macroRun⟩
  := by
  rw [runPlacements, List.mem_map]
  constructor
  · rintro ⟨⟨baseIndex, position⟩, hmem, rfl⟩
    use baseIndex, position, List.mk_mem_zipIdx_iff_getElem?.mp hmem
    rfl
  · rintro ⟨baseIndex, position, hget, rfl⟩
    use (baseIndex, position), List.mk_mem_zipIdx_iff_getElem?.mpr hget
    rfl

theorem macroRun_of_mem_runPlacements {placement : Placement}
    (h : placement ∈ runPlacements conditions firstRow macroRun) :
  placement.macroRun = macroRun + 1
  := by
  obtain ⟨baseIndex, position, hget, rfl⟩ := mem_runPlacements.mp h
  rfl

/-- A run has a row at every position. -/
theorem map_tournamentPosition :
  (runPlacements conditions firstRow macroRun).map Placement.tournamentPosition =
    (List.range firstRow.length).map fun position : ℕ => (position : ℤ) + 1
  := by
  rw [List.range_eq_range', ← List.zipIdx_map_snd 0 firstRow, runPlacements, List.map_map,
    List.map_map]
  rfl

@[simp]
theorem length_runPlacements :
  (runPlacements conditions firstRow macroRun).length = firstRow.length
  := by
  rw [runPlacements, List.length_map, List.length_zipIdx]

theorem nodup_runPlacements : (runPlacements conditions firstRow macroRun).Nodup := by
  apply List.Nodup.of_map Placement.tournamentPosition
  rw [map_tournamentPosition]
  apply List.nodup_range.map
  intro p q hpq
  simpa using hpq

/-- A row of a run among all rows is one that is taken in the run. -/
theorem mem_runPlacements_of_mem {observations : ℕ} {placement : Placement}
    (h : placement ∈ placements conditions firstRow observations)
    (hmacroRun : placement.macroRun = macroRun + 1) :
  placement ∈ runPlacements conditions firstRow macroRun
  := by
  obtain ⟨run, -, hmem⟩ := List.mem_flatMap.mp h
  have heq := macroRun_of_mem_runPlacements hmem
  rw [hmacroRun, add_left_inj, Nat.cast_inj] at heq
  rw [heq]
  apply hmem

theorem nodup_placements (observations : ℕ) :
  (placements conditions firstRow observations).Nodup
  := by
  rw [placements, List.nodup_flatMap]
  constructor
  · intro run _
    apply nodup_runPlacements
  · apply List.nodup_range.imp
    intro run run' hne placement hrun hrun'
    have heq := macroRun_of_mem_runPlacements hrun
    rw [macroRun_of_mem_runPlacements hrun'] at heq
    omega

theorem placements_succ (observations : ℕ) :
  placements conditions firstRow (observations + 1) =
    placements conditions firstRow observations ++ runPlacements conditions firstRow observations
  := by
  rw [placements, List.range_succ, List.flatMap_append, List.flatMap_singleton, placements]

theorem length_placements (observations : ℕ) :
  (placements conditions firstRow observations).length = firstRow.length * observations
  := by
  rw [placements, List.length_flatMap, List.map_congr_left fun run _ => length_runPlacements,
    List.map_const', List.length_range, List.sum_replicate, smul_eq_mul, Nat.mul_comm]

/-- The rows of a run among all rows are those of the run. -/
theorem countP_macroRun {observations : ℕ} (h : macroRun < observations) :
  (placements conditions firstRow observations).countP (·.macroRun = (macroRun : ℤ) + 1) =
    firstRow.length
  := by
  have hothers : ∀ run, run ≠ macroRun → run ∈ List.range observations →
      ((runPlacements conditions firstRow run).countP fun placement =>
        placement.macroRun = (macroRun : ℤ) + 1) = 0 := by
    intro run hne _
    rw [List.countP_eq_zero]
    intro placement hplacement
    rw [macroRun_of_mem_runPlacements hplacement, decide_eq_true_iff]
    omega
  rw [placements, List.countP_flatMap, Function.comp_def,
    List.sum_map_eq_nsmul_single macroRun _ hothers, List.nodup_range.count,
    if_pos (List.mem_range.mpr h), one_nsmul, ← length_runPlacements, List.countP_eq_length]
  intro placement hplacement
  simpa using macroRun_of_mem_runPlacements hplacement

/-! ### Balance -/

variable (hconditions : conditions.Nodup)
variable (hfirstRow : firstRow.Perm (List.range conditions.length))

include hconditions

/-- A condition is scheduled when the index is its own. -/
theorem scheduled_eq_iff {baseIndex index : ℕ} (h : index < conditions.length) :
  scheduled conditions baseIndex macroRun = conditions[index] ↔
    (baseIndex + macroRun) % conditions.length = index
  := by
  have hmod : (baseIndex + macroRun) % conditions.length < conditions.length :=
    Nat.mod_lt _ (by omega)
  rw [scheduled, List.getD_eq_getElem _ _ hmod, hconditions.getElem_inj_iff]

omit hconditions in
include hfirstRow in
/-- A run visits every index once. -/
theorem runOrder_perm :
  (runOrder conditions.length firstRow macroRun).Perm (List.range conditions.length)
  := by
  have hshift : ((List.range conditions.length).map fun baseIndex =>
      (baseIndex + macroRun) % conditions.length).Perm (List.range conditions.length) := by
    have hnodup : ((List.range conditions.length).map fun baseIndex =>
        (baseIndex + macroRun) % conditions.length).Nodup := by
      apply List.Nodup.map_on _ List.nodup_range
      intro p hp q hq heq
      rw [List.mem_range] at hp hq
      apply Nat.ModEq.eq_of_lt_of_lt _ hp hq
      apply Nat.ModEq.add_right_cancel' macroRun heq
    apply (hnodup.subperm _).perm_of_length_le
    · rw [List.length_map]
    · intro index hindex
      obtain ⟨baseIndex, hbase, rfl⟩ := List.mem_map.mp hindex
      rw [List.mem_range] at hbase ⊢
      apply Nat.mod_lt _ (by omega)
  apply (hfirstRow.map _).trans hshift

omit hconditions in
include hfirstRow in
/-- A run visits every condition once. -/
theorem map_condition_perm :
  ((runPlacements conditions firstRow macroRun).map Placement.condition).Perm conditions
  := by
  have hmap : (runPlacements conditions firstRow macroRun).map Placement.condition =
      (runOrder conditions.length firstRow macroRun).map fun index =>
        conditions.getD index ("", 0) := by
    conv_rhs => rw [← List.zipIdx_map_fst 0 firstRow]
    simp only [runPlacements, runOrder, List.map_map]
    rfl
  have hrange : (List.range conditions.length).map (fun index => conditions.getD index ("", 0)) =
      conditions := by
    apply List.ext_getElem
    · rw [List.length_map, List.length_range]
    · intro index _ h
      rw [List.getElem_map, List.getElem_range, List.getD_eq_getElem _ _ h]
  rw [hmap]
  conv_rhs => rw [← hrange]
  apply List.Perm.map
  apply runOrder_perm hfirstRow

include hfirstRow

/-- Every condition has a row in every run. -/
theorem countP_condition {condition : Condition} (h : condition ∈ conditions)
    (observations : ℕ) :
  (placements conditions firstRow observations).countP (·.condition = condition) = observations
  := by
  have hrun : ∀ run : ℕ,
      (runPlacements conditions firstRow run).countP (·.condition = condition) = 1 := by
    intro run
    have hcount : ((runPlacements conditions firstRow run).map Placement.condition).count
        condition = 1 := by
      rw [(map_condition_perm hfirstRow).count_eq, hconditions.count, if_pos h]
    rw [List.count, List.countP_map] at hcount
    apply Eq.trans _ hcount
    apply List.countP_congr
    intro placement _
    simp
  rw [placements, List.countP_flatMap, Function.comp_def]
  simp only [hrun]
  rw [List.map_const', List.length_range, List.sum_replicate, smul_eq_mul, mul_one]

/-- Over a multiple of the width every condition is at every position equally often. -/
theorem countP_condition_position {condition : Condition} (h : condition ∈ conditions)
    {position : ℕ} (hposition : position < conditions.length) {observations : ℕ}
    (hmultiple : conditions.length ∣ observations) :
  (placements conditions firstRow observations).countP
      (fun placement => placement.condition = condition ∧
        placement.tournamentPosition = (position : ℤ) + 1) =
    observations / conditions.length
  := by
  obtain ⟨index, hindex, rfl⟩ := List.getElem_of_mem h
  have hlength : position < firstRow.length := by
    rw [hfirstRow.length_eq, List.length_range]
    apply hposition
  have hplaced : ∀ run : ℕ, ⟨run + 1, position + 1, conditions[index]⟩ ∈
      runPlacements conditions firstRow run ↔
        (firstRow[position] + run) % conditions.length = index := by
    intro run
    rw [← scheduled_eq_iff hconditions hindex, mem_runPlacements]
    constructor
    · rintro ⟨baseIndex, position', hget, heq⟩
      simp only [Placement.mk.injEq, add_left_inj, Nat.cast_inj, true_and] at heq
      obtain ⟨rfl, hscheduled⟩ := heq
      rw [List.getElem?_eq_getElem hlength, Option.some_inj] at hget
      rw [hget, hscheduled]
    · intro hscheduled
      use firstRow[position], position, List.getElem?_eq_getElem hlength
      rw [hscheduled]
  rw [← count_shift hindex firstRow[position] hmultiple]
  clear hmultiple
  induction observations with
  | zero => rfl
  | succ run ih =>
      rw [placements_succ, List.countP_append, ih, Nat.count_succ]
      congr 1
      rw [← if_congr (hplaced run) rfl rfl, ← nodup_runPlacements.count, List.count]
      apply List.countP_congr
      intro placement hplacement
      have hmacroRun := macroRun_of_mem_runPlacements hplacement
      obtain ⟨placedRun, placedPosition, placedCondition⟩ := placement
      simp only [decide_eq_true_eq, beq_iff_eq, Placement.mk.injEq] at hmacroRun ⊢
      simp only [hmacroRun, true_and, and_comm]

end Rows

end ProfileTournament
