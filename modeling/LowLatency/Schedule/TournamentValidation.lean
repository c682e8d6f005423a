import LowLatency.Schedule.Tournament
import Mathlib.Data.List.AList
import Mathlib.Data.List.Dedup
import Mathlib.Data.List.Sort

/-!
# The validation of a tournament

`validate_tournament` reads the rows run by run, collects them by condition, and checks every
group. It accepts the rows that `main` takes, in any order, and no others.
-/

open Raising

namespace ProfileTournament

/-! ### Rows -/

/-- The columns of a row that the validation reads. -/
structure Row where
  macroRun : String
  tournamentPosition : String
  profile : String
  payloadBytes : String
  protocol : String
  checksum : String
  udpDeadlineMisses : String
  deriving DecidableEq

/-- The rows of each condition; a condition without rows has the empty list. -/
abbrev Groups := Condition → List Row

section Validation

-- The number that a text denotes, or the text of the exception.
variable (int : String → Except String ℤ)

/-- What a row denotes. -/
def Row.read (row : Row) : Except String Placement := do
  let macroRun ← int row.macroRun
  let tournamentPosition ← int row.tournamentPosition
  let payloadBytes ← int row.payloadBytes
  return ⟨macroRun, tournamentPosition, (row.profile, payloadBytes)⟩

/-! ### The validation of a run -/

/-- The rows of a run. -/
def macroRows (rows : List Row) (macroRun : ℕ) : Except String (List Row) :=
  select (fun row => do
    let run ← int row.macroRun
    return run = (macroRun : ℤ) + 1) rows

/-- The rows by position; of equal positions the last row stays. -/
def byPosition (macroRows : List Row) : Except String (AList fun _ : ℤ => Row) :=
  macroRows.foldlM (fun positions row => do
    let position ← int row.tournamentPosition
    return positions.insert position row) ∅

/-- The row at a position joins the group of the condition that is expected there. -/
def assignRow (conditions : List Condition) (macroRun : ℕ) (positions : AList fun _ : ℤ => Row)
    (groups : Groups) : ℕ × ℕ → Except String Groups
  | (baseIndex, position) =>
    match positions.lookup ((position : ℤ) + 1) with
    | none => .error "KeyError"
    | some row => do
        let payloadBytes ← int row.payloadBytes
        if (row.profile, payloadBytes) ≠ scheduled conditions baseIndex macroRun then
          .error "tournament order does not match its design"
        else
          .ok (Function.update groups (row.profile, payloadBytes)
            (groups (row.profile, payloadBytes) ++ [row]))

/-- A pass of the loop over the runs. -/
def validateMacroRun (conditions : List Condition) (firstRow : List ℕ) (rows : List Row)
    (groups : Groups) (macroRun : ℕ) : Except String Groups := do
  let selected ← macroRows int rows macroRun
  if selected.length ≠ conditions.length then
    .error "macro-run row count is incomplete"
  else do
    let positions ← byPosition int selected
    if positions.keys.mergeSort ≠
        (List.range conditions.length).map fun position : ℕ => (position : ℤ) + 1 then
      .error "tournament positions are incomplete or repeated"
    else
      firstRow.zipIdx.foldlM (assignRow int conditions macroRun positions) groups

/-- The rows by condition after the loop over the runs. -/
def collectGroups (profileOrder : List String) (payloads : List ℤ) (observations : ℕ)
    (rows : List Row) : Except String Groups :=
  if rows.length ≠ (conditions profileOrder payloads).length * observations then
    .error "tournament row count is incomplete"
  else do
    let firstRow ← williamsFirstRow (conditions profileOrder payloads).length
    (List.range observations).foldlM
      (validateMacroRun int (conditions profileOrder payloads) firstRow rows) fun _ => []

/-! ### The validation of a group -/

/-- How many rows of a group are at each position. -/
def positionCounts (group : List Row) : Except String (ℤ → ℕ) :=
  group.foldlM (fun counts row => do
    let position ← int row.tournamentPosition
    return Function.update counts position (counts position + 1)) fun _ => 0

/-- The checks on the number of rows and on their positions. -/
def validateBalance (width observations : ℕ) (group : List Row) : Except String Unit :=
  if group.length ≠ observations then
    .error "condition observation count is incomplete"
  else do
    let counts ← positionCounts int group
    if ∃ position < width, counts ((position : ℤ) + 1) ≠ observations / width then
      .error "condition position balance is incomplete"
    else
      .ok ()

/-- No row of a group has a deadline miss; the rows after the first miss are not read. -/
def zeroDeadlineMisses : List Row → Except String Bool
  | [] => .ok true
  | row :: group => do
      let misses ← int row.udpDeadlineMisses
      if misses = 0 then zeroDeadlineMisses group else .ok false

/-- The check on the checksums of a group. -/
def validateChecksums (group : List Row) : Except String Unit := do
  let checksums := (group.map Row.checksum).dedup
  let zero ← zeroDeadlineMisses int group
  match group with
  | [] => .error "list index out of range"
  | first :: _ =>
      if (first.protocol = "tcp" ∨ zero = true) ∧ checksums.length ≠ 1 then
        .error "stable treatment produced inconsistent checksums"
      else
        .ok ()

/-- `validate_tournament` with a check on the checksums of every group. -/
def validateTournamentWith (validateChecksums : List Row → Except String Unit)
    (profileOrder : List String) (payloads : List ℤ) (observations : ℕ) (rows : List Row) :
    Except String Unit := do
  let groups ← collectGroups int profileOrder payloads observations rows
  forM (conditions profileOrder payloads) fun condition => do
    validateBalance int (conditions profileOrder payloads).length observations (groups condition)
    validateChecksums (groups condition)

/-- `validate_tournament` -/
def validateTournament : List String → List ℤ → ℕ → List Row → Except String Unit :=
  validateTournamentWith int (validateChecksums int)

end Validation

/-! ### What a validated run holds -/

section Runs

variable {int : String → Except String ℤ} {conditions : List Condition} {firstRow : List ℕ}
variable {macroRun : ℕ} {rows selected : List Row} {positions : AList fun _ : ℤ => Row}
variable {groups groups' : Groups}

theorem read_eq_ok {row : Row} {placement : Placement} :
  row.read int = .ok placement ↔
    int row.macroRun = .ok placement.macroRun ∧
    int row.tournamentPosition = .ok placement.tournamentPosition ∧
    row.profile = placement.condition.1 ∧ int row.payloadBytes = .ok placement.condition.2
  := by
  obtain ⟨run, position, profile, payload⟩ := placement
  simp only [Row.read, bind_eq_ok, pure_eq_ok, Placement.mk.injEq, Prod.mk.injEq]
  constructor
  · rintro ⟨_, hrun, _, hposition, _, hpayload, rfl, rfl, hprofile, rfl⟩
    use hrun, hposition, hprofile, hpayload
  · rintro ⟨hrun, hposition, hprofile, hpayload⟩
    use run, hrun, position, hposition, payload, hpayload

theorem of_mem_macroRows (h : macroRows int rows macroRun = .ok selected) {row : Row}
    (hrow : row ∈ selected) :
  row ∈ rows ∧ int row.macroRun = .ok (macroRun + 1)
  := by
  obtain ⟨hmem, hrun⟩ := of_mem_select h hrow
  simp only [bind_eq_ok, pure_eq_ok, decide_eq_true_eq] at hrun
  obtain ⟨run, hint, rfl⟩ := hrun
  use hmem, hint

/-- The row at a position is one of the rows. -/
theorem of_lookup_byPosition (h : byPosition int selected = .ok positions) {position : ℤ}
    {row : Row} (hlookup : positions.lookup position = some row) :
  row ∈ selected ∧ int row.tournamentPosition = .ok position
  := by
  have hinvariant := foldlM_invariant (I := fun rows positions => ∀ position row,
    AList.lookup position positions = some row →
      row ∈ rows ∧ int row.tournamentPosition = .ok position) ?_ ?_ h
  · apply hinvariant position row hlookup
  · intro position row hlookup
    simp at hlookup
  · intro seen row positions positions' hseen hstep position row' hlookup
    simp only [bind_eq_ok, pure_eq_ok] at hstep
    obtain ⟨key, hkey, rfl⟩ := hstep
    by_cases heq : position = key
    · subst heq
      rw [AList.lookup_insert, Option.some_inj] at hlookup
      subst hlookup
      use List.mem_concat_self, hkey
    · rw [AList.lookup_insert_ne heq] at hlookup
      obtain ⟨hmem, hint⟩ := hseen position row' hlookup
      use List.mem_append_left _ hmem, hint

/-- There is a row at the position of every row. -/
theorem mem_byPosition (h : byPosition int selected = .ok positions) {position : ℤ} {row : Row}
    (hrow : row ∈ selected) (hint : int row.tournamentPosition = .ok position) :
  position ∈ positions
  := by
  have hinvariant := foldlM_invariant (I := fun rows positions => ∀ row ∈ rows, ∀ position,
    int row.tournamentPosition = .ok position → position ∈ positions) ?_ ?_ h
  · apply hinvariant row hrow position hint
  · intro row hrow
    cases hrow
  · intro seen row positions positions' hseen hstep row' hrow' position hint
    simp only [bind_eq_ok, pure_eq_ok] at hstep
    obtain ⟨key, hkey, rfl⟩ := hstep
    rw [AList.mem_insert]
    cases List.mem_append.mp hrow' with
    | inl hmem =>
        right
        apply hseen row' hmem position hint
    | inr hmem =>
        left
        rw [List.mem_singleton.mp hmem, hkey] at hint
        cases hint
        rfl

theorem assignRow_eq_ok {baseIndex position : ℕ} :
  assignRow int conditions macroRun positions groups (baseIndex, position) = .ok groups' ↔
    ∃ row payloadBytes, positions.lookup ((position : ℤ) + 1) = some row ∧
      int row.payloadBytes = .ok payloadBytes ∧
      (row.profile, payloadBytes) = scheduled conditions baseIndex macroRun ∧
      groups' = Function.update groups (scheduled conditions baseIndex macroRun)
        (groups (scheduled conditions baseIndex macroRun) ++ [row])
  := by
  rw [assignRow]
  cases hlookup : positions.lookup ((position : ℤ) + 1) with
  | none => simp
  | some row =>
      simp only [bind_eq_ok, raise_or_eq_ok, not_not, Option.some_inj]
      constructor
      · rintro ⟨payloadBytes, hpayload, hexpected, hgroups⟩
        use row, payloadBytes, rfl, hpayload, hexpected
        cases hgroups
        rw [hexpected]
      · rintro ⟨_, payloadBytes, rfl, hpayload, hexpected, rfl⟩
        use payloadBytes, hpayload, hexpected
        rw [hexpected]

theorem read_of_lookup (hselected : macroRows int rows macroRun = .ok selected)
    (hpositions : byPosition int selected = .ok positions) {position payloadBytes : ℤ} {row : Row}
    (hlookup : positions.lookup position = some row)
    (hpayload : int row.payloadBytes = .ok payloadBytes) :
  row ∈ rows ∧ row.read int = .ok ⟨macroRun + 1, position, (row.profile, payloadBytes)⟩
  := by
  obtain ⟨hmem, hposition⟩ := of_lookup_byPosition hpositions hlookup
  obtain ⟨hrow, hrun⟩ := of_mem_macroRows hselected hmem
  use hrow
  rw [read_eq_ok]
  use hrun, hposition, rfl, hpayload

theorem validateMacroRun_eq_ok :
  validateMacroRun int conditions firstRow rows groups macroRun = .ok groups' ↔
    ∃ selected positions, macroRows int rows macroRun = .ok selected ∧
      selected.length = conditions.length ∧
      byPosition int selected = .ok positions ∧
      positions.keys.mergeSort =
        (List.range conditions.length).map (fun position : ℕ => (position : ℤ) + 1) ∧
      firstRow.zipIdx.foldlM (assignRow int conditions macroRun positions) groups = .ok groups'
  := by
  simp only [validateMacroRun, bind_eq_ok, raise_or_eq_ok, not_not]
  constructor
  · rintro ⟨selected, hselected, hlength, positions, hpositions, hsorted, hassign⟩
    use selected, positions
  · rintro ⟨selected, positions, hselected, hlength, hpositions, hsorted, hassign⟩
    use selected, hselected, hlength, positions, hpositions, hsorted

/-- A validated run has a row for every row that is expected. -/
theorem exists_row_of_validateMacroRun
    (h : validateMacroRun int conditions firstRow rows groups macroRun = .ok groups')
    {placement : Placement} (hplacement : placement ∈ runPlacements conditions firstRow macroRun) :
  ∃ row ∈ rows, row.read int = .ok placement
  := by
  obtain ⟨selected, positions, hselected, -, hpositions, -, hassign⟩ := validateMacroRun_eq_ok.mp h
  obtain ⟨baseIndex, position, hget, rfl⟩ := mem_runPlacements.mp hplacement
  have hmem : (baseIndex, position) ∈ firstRow.zipIdx := List.mk_mem_zipIdx_iff_getElem?.mpr hget
  obtain ⟨before, after, hstep⟩ := of_foldlM_eq_ok hassign hmem
  obtain ⟨row, payloadBytes, hlookup, hpayload, hexpected, -⟩ := assignRow_eq_ok.mp hstep
  obtain ⟨hrow, hread⟩ := read_of_lookup hselected hpositions hlookup hpayload
  use row, hrow
  rw [hread, hexpected]

/-- A group has the rows of its condition that are expected in a run, in their order. -/
theorem map_read_validateMacroRun
    (h : validateMacroRun int conditions firstRow rows groups macroRun = .ok groups')
    (condition : Condition) :
  (groups' condition).map (Row.read int) = (groups condition).map (Row.read int) ++
    ((runPlacements conditions firstRow macroRun).filter (·.condition = condition)).map .ok
  := by
  obtain ⟨selected, positions, hselected, -, hpositions, -, hassign⟩ := validateMacroRun_eq_ok.mp h
  have hinvariant := foldlM_invariant (I := fun seen groups' => ∀ condition,
    (groups' condition).map (Row.read int) = (groups condition).map (Row.read int) ++
      ((seen.map (placed conditions macroRun)).filter (·.condition = condition)).map .ok)
    ?_ ?_ hassign
  · apply hinvariant
  · intro condition
    simp
  · rintro seen ⟨baseIndex, position⟩ before after hseen hstep condition
    obtain ⟨row, payloadBytes, hlookup, hpayload, hexpected, rfl⟩ := assignRow_eq_ok.mp hstep
    obtain ⟨-, hread⟩ := read_of_lookup hselected hpositions hlookup hpayload
    rw [hexpected] at hread
    rw [List.map_append, List.filter_append, List.map_append, ← List.append_assoc]
    by_cases heq : condition = scheduled conditions baseIndex macroRun
    · subst heq
      rw [Function.update_self, List.map_append, hseen]
      simp [hread, placed]
    · rw [Function.update_of_ne heq, hseen]
      simp [placed, Ne.symm heq]

/-! ### The rows of a validated tournament -/

theorem map_read_collected {observations : ℕ}
    (h : (List.range observations).foldlM (validateMacroRun int conditions firstRow rows)
      (fun _ => []) = .ok groups) (condition : Condition) :
  (groups condition).map (Row.read int) =
    ((placements conditions firstRow observations).filter (·.condition = condition)).map .ok
  := by
  have hinvariant := foldlM_invariant (I := fun runs groups => ∀ condition,
    (groups condition).map (Row.read int) =
      ((runs.flatMap (runPlacements conditions firstRow)).filter
        (·.condition = condition)).map .ok) ?_ ?_ h
  · apply hinvariant
  · intro condition
    rfl
  · intro runs run before after hruns hstep condition
    rw [map_read_validateMacroRun hstep, hruns, List.flatMap_append, List.filter_append,
      List.map_append, List.flatMap_singleton]

/-- The rows that the runner takes are all there, and there are no more. -/
theorem perm_of_collected {observations : ℕ}
    (hlength : rows.length = firstRow.length * observations)
    (h : (List.range observations).foldlM (validateMacroRun int conditions firstRow rows)
      (fun _ => []) = .ok groups) :
  (rows.map (Row.read int)).Perm ((placements conditions firstRow observations).map .ok)
  := by
  have hinjective : Function.Injective (Except.ok : Placement → Except String Placement) := by
    intro a b hab
    cases hab
    rfl
  have hsubset : (placements conditions firstRow observations).map .ok ⊆
      rows.map (Row.read int) := by
    intro read hread
    obtain ⟨placement, hplacement, rfl⟩ := List.mem_map.mp hread
    obtain ⟨run, hrun, hmem⟩ := List.mem_flatMap.mp hplacement
    obtain ⟨before, after, hstep⟩ := of_foldlM_eq_ok h hrun
    obtain ⟨row, hrow, hread⟩ := exists_row_of_validateMacroRun hstep hmem
    rw [List.mem_map]
    use row
  have hnodup : ((placements conditions firstRow observations).map
      (Except.ok : Placement → Except String Placement)).Nodup :=
    (nodup_placements observations).map hinjective
  apply ((hnodup.subperm hsubset).perm_of_length_le _).symm
  rw [List.length_map, List.length_map, hlength, length_placements]

/-! ### A complete tournament -/

section Complete

variable {observations : ℕ}
variable (hperm : (rows.map (Row.read int)).Perm
  ((placements conditions firstRow observations).map .ok))

include hperm

theorem exists_placement {row : Row} (hrow : row ∈ rows) :
  ∃ placement ∈ placements conditions firstRow observations, row.read int = .ok placement
  := by
  have hread : row.read int ∈ rows.map (Row.read int) := List.mem_map_of_mem hrow
  rw [hperm.mem_iff, List.mem_map] at hread
  obtain ⟨placement, hplacement, heq⟩ := hread
  use placement, hplacement, heq.symm

theorem exists_row {placement : Placement}
    (hplacement : placement ∈ placements conditions firstRow observations) :
  ∃ row ∈ rows, row.read int = .ok placement
  := by
  have hread : .ok placement ∈ rows.map (Row.read int) := by
    rw [hperm.mem_iff]
    apply List.mem_map_of_mem hplacement
  apply List.mem_map.mp hread

omit hperm in
/-- A row denotes one of a run. -/
def inRun (macroRun : ℕ) : Except String Placement → Bool
  | .ok placement => placement.macroRun = (macroRun : ℤ) + 1
  | .error _ => false

theorem macroRows_eq :
  macroRows int rows macroRun = .ok (rows.filter fun row => inRun macroRun (row.read int))
  := by
  apply select_eq_ok
  intro row hrow
  obtain ⟨placement, -, hread⟩ := exists_placement hperm hrow
  rw [hread, (read_eq_ok.mp hread).1, ok_bind]
  rfl

theorem length_inRun (hmacroRun : macroRun < observations) :
  (rows.filter fun row => inRun macroRun (row.read int)).length = firstRow.length
  := by
  have hcount := hperm.countP_eq (inRun macroRun)
  rw [List.countP_map, List.countP_map] at hcount
  rw [← List.countP_eq_length_filter, ← countP_macroRun hmacroRun]
  apply hcount

/-- The positions of the rows of a run are those of the first row. -/
theorem mem_positions_iff (hselected : macroRows int rows macroRun = .ok selected)
    (hmacroRun : macroRun < observations)
    (hpositions : byPosition int selected = .ok positions) {position : ℤ} :
  position ∈ positions ↔ position ∈ (List.range firstRow.length).map fun p : ℕ => (p : ℤ) + 1
  := by
  have hmap : (runPlacements conditions firstRow macroRun).map Placement.tournamentPosition =
      (List.range firstRow.length).map fun p : ℕ => (p : ℤ) + 1 := map_tournamentPosition
  rw [← hmap, List.mem_map]
  constructor
  · intro hmem
    obtain ⟨row, hlookup⟩ := Option.isSome_iff_exists.mp (AList.lookup_isSome.mpr hmem)
    obtain ⟨hrow, hposition⟩ := of_lookup_byPosition hpositions hlookup
    obtain ⟨hrow, hrun⟩ := of_mem_macroRows hselected hrow
    obtain ⟨placement, hplacement, hread⟩ := exists_placement hperm hrow
    obtain ⟨hrun', hposition', -⟩ := read_eq_ok.mp hread
    rw [hrun, Except.ok.injEq] at hrun'
    rw [hposition, Except.ok.injEq] at hposition'
    use placement, mem_runPlacements_of_mem hplacement hrun'.symm, hposition'.symm
  · rintro ⟨placement, hplacement, rfl⟩
    have hmem : placement ∈ placements conditions firstRow observations := by
      apply List.mem_flatMap.mpr
      use macroRun, List.mem_range.mpr hmacroRun
    obtain ⟨row, hrow, hread⟩ := exists_row hperm hmem
    rw [macroRows_eq hperm, Except.ok.injEq] at hselected
    subst hselected
    apply mem_byPosition hpositions _ (read_eq_ok.mp hread).2.1
    rw [List.mem_filter, hread]
    use hrow
    simpa [inRun] using macroRun_of_mem_runPlacements hplacement

theorem sort_keys (hselected : macroRows int rows macroRun = .ok selected)
    (hmacroRun : macroRun < observations)
    (hpositions : byPosition int selected = .ok positions) :
  positions.keys.mergeSort = (List.range firstRow.length).map fun p : ℕ => (p : ℤ) + 1
  := by
  have hincreasing : ((List.range firstRow.length).map fun p : ℕ => (p : ℤ) + 1).Pairwise
      (· < ·) := by
    rw [List.pairwise_map]
    apply List.pairwise_lt_range.imp
    intro p q hpq
    omega
  have hkeys : positions.keys.Perm
      ((List.range firstRow.length).map fun p : ℕ => (p : ℤ) + 1) := by
    rw [List.perm_ext_iff_of_nodup positions.keys_nodup hincreasing.nodup]
    intro position
    rw [← AList.mem_keys]
    apply mem_positions_iff hperm hselected hmacroRun hpositions
  apply ((List.mergeSort_perm _ _).trans hkeys).eq_of_pairwise'
    (List.pairwise_mergeSort' (· ≤ ·) _)
  apply hincreasing.imp fun hlt => hlt.le

theorem exists_byPosition_eq_ok (hselected : macroRows int rows macroRun = .ok selected) :
  ∃ positions, byPosition int selected = .ok positions
  := by
  apply exists_foldlM_eq_ok
  intro row hrow positions
  obtain ⟨placement, -, hread⟩ := exists_placement hperm (of_mem_macroRows hselected hrow).1
  use positions.insert placement.tournamentPosition row
  rw [(read_eq_ok.mp hread).2.1]
  rfl

/-- The row at a position is of the condition that is expected there. -/
theorem exists_assignRow_eq_ok (hselected : macroRows int rows macroRun = .ok selected)
    (hmacroRun : macroRun < observations)
    (hpositions : byPosition int selected = .ok positions) {entry : ℕ × ℕ}
    (hentry : entry ∈ firstRow.zipIdx) (groups : Groups) :
  ∃ groups', assignRow int conditions macroRun positions groups entry = .ok groups'
  := by
  obtain ⟨baseIndex, position⟩ := entry
  have hget := List.mk_mem_zipIdx_iff_getElem?.mp hentry
  have hmem : (position : ℤ) + 1 ∈ positions := by
    rw [mem_positions_iff hperm hselected hmacroRun hpositions, List.mem_map]
    obtain ⟨hlt, -⟩ := List.getElem?_eq_some_iff.mp hget
    use position, List.mem_range.mpr hlt
  obtain ⟨row, hlookup⟩ := Option.isSome_iff_exists.mp (AList.lookup_isSome.mpr hmem)
  obtain ⟨hrow, hposition⟩ := of_lookup_byPosition hpositions hlookup
  obtain ⟨hrow, hrun⟩ := of_mem_macroRows hselected hrow
  obtain ⟨placement, hplacement, hread⟩ := exists_placement hperm hrow
  obtain ⟨hrun', hposition', hprofile, hpayload⟩ := read_eq_ok.mp hread
  rw [hrun, Except.ok.injEq] at hrun'
  have htaken := mem_runPlacements_of_mem hplacement hrun'.symm
  obtain ⟨baseIndex', position', hget', rfl⟩ := mem_runPlacements.mp htaken
  simp only [hposition, Except.ok.injEq, add_left_inj, Nat.cast_inj] at hposition'
  subst hposition'
  rw [hget, Option.some_inj] at hget'
  subst hget'
  use Function.update groups (scheduled conditions baseIndex macroRun)
    (groups (scheduled conditions baseIndex macroRun) ++ [row])
  rw [assignRow_eq_ok]
  use row, (scheduled conditions baseIndex macroRun).2, hlookup, hpayload
  rw [hprofile]
  use rfl

theorem exists_validateMacroRun_eq_ok (hlength : firstRow.length = conditions.length)
    (hmacroRun : macroRun < observations) (groups : Groups) :
  ∃ groups', validateMacroRun int conditions firstRow rows groups macroRun = .ok groups'
  := by
  have hselected : macroRows int rows macroRun = _ := macroRows_eq hperm
  obtain ⟨positions, hpositions⟩ := exists_byPosition_eq_ok hperm hselected
  have hassigned : ∃ groups', firstRow.zipIdx.foldlM
      (assignRow int conditions macroRun positions) groups = .ok groups' := by
    apply exists_foldlM_eq_ok
    intro entry hentry groups
    apply exists_assignRow_eq_ok hperm hselected hmacroRun hpositions hentry
  obtain ⟨groups', hassign⟩ := hassigned
  use groups'
  rw [validateMacroRun_eq_ok]
  use rows.filter fun row => inRun macroRun (row.read int), positions, hselected
  rw [length_inRun hperm hmacroRun]
  use hlength, hpositions
  rw [← hlength]
  use sort_keys hperm hselected hmacroRun hpositions

end Complete

/-! ### The groups of a complete tournament -/

/-- The counts of a group are those of the rows that it denotes. -/
theorem positionCounts_eq {group : List Row} {taken : List Placement}
    (h : group.map (Row.read int) = taken.map .ok) :
  ∃ counts, positionCounts int group = .ok counts ∧
    ∀ position, counts position = (taken.map Placement.tournamentPosition).count position
  := by
  induction group using List.reverseRecOn generalizing taken with
  | nil =>
      have hnil : taken = [] := by simpa using h.symm
      subst hnil
      use fun _ => 0, rfl
      intro position
      rfl
  | append_singleton group row ih =>
      rw [List.map_append, List.map_singleton] at h
      obtain ⟨before, last, rfl, hbefore, hlast⟩ := List.append_eq_map_iff.mp h
      obtain ⟨placement, rfl, hread⟩ := List.map_eq_singleton_iff.mp hlast
      obtain ⟨counts, hcounts, hcount⟩ := ih hbefore.symm
      use Function.update counts placement.tournamentPosition
        (counts placement.tournamentPosition + 1)
      constructor
      · rw [positionCounts, foldlM_concat]
        use counts, hcounts
        rw [(read_eq_ok.mp hread.symm).2.1]
        rfl
      · intro position
        rw [List.map_append, List.count_append, ← hcount]
        by_cases heq : position = placement.tournamentPosition
        · subst heq
          rw [Function.update_self]
          simp
        · rw [Function.update_of_ne heq]
          simp [Ne.symm heq]

/-- The group of a condition passes both checks. -/
theorem validateBalance_eq_ok (hconditions : conditions.Nodup)
    (hfirstRow : firstRow.Perm (List.range conditions.length)) {condition : Condition}
    (hcondition : condition ∈ conditions) {observations : ℕ}
    (hmultiple : conditions.length ∣ observations) {group : List Row}
    (h : group.map (Row.read int) =
      ((placements conditions firstRow observations).filter (·.condition = condition)).map .ok) :
  validateBalance int conditions.length observations group = .ok ()
  := by
  have hlength : group.length = observations := by
    rw [← List.length_map (Row.read int), h, List.length_map, ← List.countP_eq_length_filter]
    apply countP_condition hconditions hfirstRow hcondition
  obtain ⟨counts, hcounts, hcount⟩ := positionCounts_eq h
  have hbalanced : ∀ position < conditions.length,
      counts ((position : ℤ) + 1) = observations / conditions.length := by
    intro position hposition
    rw [hcount, ← countP_condition_position hconditions hfirstRow hcondition hposition hmultiple,
      List.count, List.countP_map, List.countP_filter]
    apply List.countP_congr
    intro placement _
    simp [and_comm]
  rw [validateBalance, if_neg (not_not.mpr hlength), hcounts, ok_bind, if_neg]
  push Not
  apply hbalanced

end Runs

/-! ### The validation of a tournament -/

section Tournament

variable (int : String → Except String ℤ) {profileOrder : List String} {payloads : List ℤ}
variable {observations : ℕ} {firstRow : List ℕ} {rows : List Row}

/-- The loop over the runs accepts the rows that `main` takes, in any order, and no others. -/
theorem exists_collectGroups_eq_ok_iff
    (hfirstRow : williamsFirstRow (conditions profileOrder payloads).length = .ok firstRow)
    (hlength : firstRow.length = (conditions profileOrder payloads).length) :
  (∃ groups, collectGroups int profileOrder payloads observations rows = .ok groups) ↔
    (rows.map (Row.read int)).Perm
      ((placements (conditions profileOrder payloads) firstRow observations).map .ok)
  := by
  simp only [collectGroups, raise_or_eq_ok, not_not, hfirstRow, ok_bind]
  constructor
  · rintro ⟨groups, hrows, hgroups⟩
    rw [← hlength] at hrows
    apply perm_of_collected hrows hgroups
  · intro hperm
    obtain ⟨groups, hgroups⟩ := exists_foldlM_eq_ok (b := fun _ => []) fun run hrun groups =>
      exists_validateMacroRun_eq_ok hperm hlength (List.mem_range.mp hrun) groups
    use groups
    refine ⟨?_, hgroups⟩
    have hcount := hperm.length_eq
    rw [List.length_map, List.length_map, length_placements, hlength] at hcount
    apply hcount

theorem validateTournamentWith_eq_ok_iff {check : List Row → Except String Unit} :
  validateTournamentWith int check profileOrder payloads observations rows = .ok () ↔
    ∃ groups, collectGroups int profileOrder payloads observations rows = .ok groups ∧
      ∀ condition ∈ conditions profileOrder payloads,
        validateBalance int (conditions profileOrder payloads).length observations
          (groups condition) = .ok () ∧ check (groups condition) = .ok ()
  := by
  simp only [validateTournamentWith, bind_eq_ok, forM_eq_ok]
  constructor
  · rintro ⟨groups, hgroups, hchecks⟩
    use groups, hgroups
    intro condition hcondition
    obtain ⟨_, hbalance, hcheck⟩ := hchecks condition hcondition
    use hbalance
  · rintro ⟨groups, hgroups, hchecks⟩
    use groups, hgroups
    intro condition hcondition
    obtain ⟨hbalance, hcheck⟩ := hchecks condition hcondition
    use (), hbalance

/-- The groups of an accepted tournament are balanced. -/
theorem validateBalance_of_collectGroups (h : Design profileOrder payloads observations)
    {groups : Groups}
    (hgroups : collectGroups int profileOrder payloads observations rows = .ok groups)
    {condition : Condition} (hcondition : condition ∈ conditions profileOrder payloads) :
  validateBalance int (conditions profileOrder payloads).length observations
    (groups condition) = .ok ()
  := by
  obtain ⟨firstRow, hfirstRow, hperm⟩ := h.exists_firstRow
  simp only [collectGroups, raise_or_eq_ok, hfirstRow, ok_bind] at hgroups
  apply validateBalance_eq_ok h.nodup_conditions hperm hcondition h.multiple
  apply map_read_collected hgroups.2

/-- The validation without the checksums accepts exactly the rows that `main` takes, in any
order; with them it also asks that every stable group has one checksum. The groups that the
loop over the runs leaves are always balanced. -/
theorem validateTournament_exact (h : Design profileOrder payloads observations)
    (rows : List Row) :
  ∃ design, generate profileOrder payloads observations = .ok design ∧
    (validateTournamentWith int (fun _ => .ok ()) profileOrder payloads observations rows =
        .ok () ↔
      (rows.map (Row.read int)).Perm (design.map .ok)) ∧
    (validateTournament int profileOrder payloads observations rows = .ok () ↔
      (rows.map (Row.read int)).Perm (design.map .ok) ∧
      ∃ groups, collectGroups int profileOrder payloads observations rows = .ok groups ∧
        ∀ condition ∈ conditions profileOrder payloads,
          validateChecksums int (groups condition) = .ok ()) ∧
    ∀ groups, collectGroups int profileOrder payloads observations rows = .ok groups →
      ∀ condition ∈ conditions profileOrder payloads,
        validateBalance int (conditions profileOrder payloads).length observations
          (groups condition) = .ok ()
  := by
  obtain ⟨firstRow, hfirstRow, hperm⟩ := h.exists_firstRow
  have hlength : firstRow.length = (conditions profileOrder payloads).length := by
    rw [hperm.length_eq, List.length_range]
  use placements (conditions profileOrder payloads) firstRow observations
  constructor
  · rw [generate, hfirstRow]
    rfl
  · rw [← exists_collectGroups_eq_ok_iff int hfirstRow hlength, validateTournament,
      validateTournamentWith_eq_ok_iff, validateTournamentWith_eq_ok_iff]
    constructor
    · constructor
      · rintro ⟨groups, hgroups, -⟩
        use groups
      · rintro ⟨groups, hgroups⟩
        use groups, hgroups
        intro condition hcondition
        use validateBalance_of_collectGroups int h hgroups hcondition
    · constructor
      · constructor
        · rintro ⟨groups, hgroups, hchecks⟩
          use ⟨groups, hgroups⟩, groups, hgroups
          intro condition hcondition
          apply (hchecks condition hcondition).2
        · rintro ⟨-, groups, hgroups, hchecks⟩
          use groups, hgroups
          intro condition hcondition
          use validateBalance_of_collectGroups int h hgroups hcondition
          apply hchecks condition hcondition
      · intro groups hgroups condition hcondition
        apply validateBalance_of_collectGroups int h hgroups hcondition

/-- A number written with decimal digits. -/
def decimal (text : String) : Except String ℤ :=
  text.toList.foldlM (fun value digit =>
    if digit.isDigit then .ok (10 * value + (digit.toNat - '0'.toNat : ℤ))
    else .error "invalid literal for int() with base 10") 0

/-- Two runs of two conditions, not in the order in which they were taken. -/
def shuffledRows : List Row :=
  [⟨"1", "2", "tcp-nodelay", "64", "tcp", "7", "0"⟩,
    ⟨"2", "2", "baseline", "64", "tcp", "7", "0"⟩,
    ⟨"1", "1", "baseline", "64", "tcp", "7", "0"⟩,
    ⟨"2", "1", "tcp-nodelay", "64", "tcp", "7", "0"⟩]

theorem validateTournament_exact_shuffled :
  validateTournamentWith decimal (fun _ => .ok ()) ["baseline", "tcp-nodelay"] [64] 2
    shuffledRows = .ok ()
  := by
  obtain ⟨design, hdesign, haccepts, -⟩ := validateTournament_exact decimal
    (⟨by decide, by decide, by decide, by decide, by decide⟩ :
      Design ["baseline", "tcp-nodelay"] [64] 2) shuffledRows
  cases hdesign
  have hread : shuffledRows.map (Row.read decimal) =
      [⟨1, 2, ("tcp-nodelay", 64)⟩, ⟨2, 2, ("baseline", 64)⟩, ⟨1, 1, ("baseline", 64)⟩,
        ⟨2, 1, ("tcp-nodelay", 64)⟩].map .ok := rfl
  apply haccepts.mpr
  rw [hread]
  apply List.Perm.map
  decide

end Tournament

end ProfileTournament
