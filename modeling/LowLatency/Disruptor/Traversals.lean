import Mathlib.Data.List.Nodup
import LowLatency.Disruptor.Ring

/-!
# The loops over the slots of a batch

The four loops of the class, on words, with whatever the writer or the handler does at a slot
as the body. The two loops of a handle do what the one loop of the direct operation does, from
every position, the ones in front of the wrap of a word included.
-/

namespace Disruptor

namespace Geometry

variable (g : Geometry) {σ : Type}

/-- `Capacity` as a `std::size_t`. -/
def capacityWord : SequenceType := BitVec.ofNat 64 g.capacity

/-- The subscript of `event_at`. -/
def eventAt (sequence : SequenceType) : SequenceType :=
  sequence &&& (g.capacityWord - 1)

/-- The local `contiguous_count` of the handles. -/
def contiguousCountWord (first count : SequenceType) : SequenceType :=
  let firstIndex := first &&& (g.capacityWord - 1)
  if count < g.capacityWord - firstIndex then count else g.capacityWord - firstIndex

/-- The two loops of a handle. What is invoked gets the subscript of the slot and the argument
of the index. -/
def twoLoops (first count : SequenceType) (argument : SequenceType → SequenceType)
    (invoke : SequenceType → SequenceType → σ → σ) (s : σ) : σ :=
  let firstIndex := first &&& (g.capacityWord - 1)
  let contiguousCount := g.contiguousCountWord first count
  let s := Wrapping.forLoop contiguousCount
    (fun index => invoke (firstIndex + index) (argument index)) 0 s
  Wrapping.forLoop count
    (fun index => invoke (index - contiguousCount) (argument index)) contiguousCount s

/-- The one loop of a direct operation. -/
def maskedLoop (first count : SequenceType) (argument : SequenceType → SequenceType)
    (invoke : SequenceType → SequenceType → σ → σ) (s : σ) : σ :=
  Wrapping.forLoop count
    (fun index => invoke (g.eventAt (first + index)) (argument index)) 0 s

/-- The loops of `producer_handle::try_publish_batch`: the writer gets the index. -/
def handlePublish (first count : SequenceType) :
    (SequenceType → SequenceType → σ → σ) → σ → σ :=
  g.twoLoops first count fun index => index

/-- The loop of `try_publish_batch`. -/
def directPublish (first count : SequenceType) :
    (SequenceType → SequenceType → σ → σ) → σ → σ :=
  g.maskedLoop first count fun index => index

/-- The loops of `consumer_handle::consume_available`: the handler gets the sequence. -/
def handleConsume (first count : SequenceType) :
    (SequenceType → SequenceType → σ → σ) → σ → σ :=
  g.twoLoops first count fun index => first + index

/-- The loop of `consume_available`. -/
def directConsume (first count : SequenceType) :
    (SequenceType → SequenceType → σ → σ) → σ → σ :=
  g.maskedLoop first count fun index => first + index

/-- A slot visited, and the argument. -/
def record (slot argument : SequenceType) (visits : List (SequenceType × SequenceType)) :
    List (SequenceType × SequenceType) :=
  visits ++ [(slot, argument)]

/-! ### The words of the loops -/

variable (first count : SequenceType)

theorem toNat_capacityWord : g.capacityWord.toNat = g.capacity := by
  rw [capacityWord, BitVec.toNat_ofNat]
  apply Nat.mod_eq_of_lt g.capacity_lt

theorem capacityWord_sub_one : g.capacityWord - 1 = BitVec.ofNat 64 (g.capacity - 1) := by
  apply BitVec.eq_of_toNat_eq
  have hpos := g.capacity_ne_zero
  have hlt := g.capacity_lt
  have hsub : (g.capacityWord - BitVec.ofNat 64 1).toNat = g.capacity - 1 := by
    apply Wrapping.toNat_sub_ofNat
    · omega
    · omega
  have hone : (1 : SequenceType) = BitVec.ofNat 64 1 := rfl
  rw [hone, hsub, BitVec.toNat_ofNat, Nat.mod_eq_of_lt (by omega)]

/-- The subscript of `event_at` is the slot of the position. -/
theorem toNat_eventAt (sequence : SequenceType) :
  (g.eventAt sequence).toNat = g.wrapping.index sequence
  := by
  rw [eventAt, capacityWord_sub_one]
  rfl

/-- The capacity is not smaller than the first index. -/
theorem toNat_capacityWord_sub :
  (g.capacityWord - g.eventAt first).toNat = g.capacity - g.wrapping.index first
  := by
  have hindex := g.wrapping_index_lt first
  have hlt := g.capacity_lt
  rw [← toNat_eventAt] at hindex ⊢
  rw [capacityWord, ← Wrapping.ofNat_toNat (g.eventAt first), Wrapping.toNat_sub_ofNat]
  · rw [Wrapping.ofNat_toNat]
  · omega
  · omega

theorem toNat_contiguousCountWord :
  (g.contiguousCountWord first count).toNat
    = g.contiguousCount g.wrapping first count.toNat
  := by
  have hsub := g.toNat_capacityWord_sub first
  have hfirst : first &&& (g.capacityWord - 1) = g.eventAt first := rfl
  simp only [contiguousCountWord, hfirst, contiguousCount, BitVec.lt_def, hsub]
  split_ifs
  · rfl
  · apply hsub

theorem contiguousCount_le {P : Type} (A : PositionArithmetic P) (first : P) (count : ℕ) :
  g.contiguousCount A first count ≤ count
  := by
  rw [contiguousCount]
  split_ifs
  all_goals omega

/-! ### What the loops visit -/

/-- The visits in the order of the indices. -/
def visits (traversal : Traversal) (argument : SequenceType → SequenceType) :
    List (SequenceType × SequenceType) :=
  (List.range count.toNat).map fun index =>
    (BitVec.ofNat 64 (g.subscript g.wrapping traversal first count.toNat index),
     argument (BitVec.ofNat 64 index))

variable {g} {argument : SequenceType → SequenceType}
  (invoke : SequenceType → SequenceType → σ → σ) (s : σ)

theorem maskedLoop_eq :
  g.maskedLoop first count argument invoke s
    = (g.visits first count .masked argument).foldl (fun s visit => invoke visit.1 visit.2 s) s
  := by
  rw [maskedLoop, Wrapping.forLoop_zero, visits, List.foldl_map]
  apply List.foldl_ext
  intro s index _
  have hslot : g.eventAt (first + BitVec.ofNat 64 index)
      = BitVec.ofNat 64 (g.subscript g.wrapping .masked first count.toNat index) := by
    rw [subscript, ← Wrapping.ofNat_toNat (g.eventAt _), toNat_eventAt]
    rfl
  rw [hslot]

theorem twoLoops_eq :
  g.twoLoops first count argument invoke s
    = (g.visits first count .twoSpan argument).foldl (fun s visit => invoke visit.1 visit.2 s) s
  := by
  have hfirst : first &&& (g.capacityWord - 1) = g.eventAt first := rfl
  have hcontiguous := g.toNat_contiguousCountWord first count
  have hle := g.contiguousCount_le g.wrapping first count.toNat
  have hcount := count.isLt
  rw [← hcontiguous] at hle
  -- the indices of the first loop, and those of the second one
  have hindices : List.range count.toNat
      = List.range (g.contiguousCountWord first count).toNat
        ++ List.range' (g.contiguousCountWord first count).toNat
            (count.toNat - (g.contiguousCountWord first count).toNat) := by
    have happend := List.range'_append_1 (s := 0) (m := (g.contiguousCountWord first count).toNat)
      (n := count.toNat - (g.contiguousCountWord first count).toNat)
    rw [Nat.zero_add, Nat.add_sub_cancel' hle] at happend
    rw [List.range_eq_range', List.range_eq_range', happend]
  simp only [twoLoops, hfirst]
  rw [Wrapping.forLoop_zero, Wrapping.forLoop_eq, visits, List.foldl_map, hindices,
    List.foldl_append]
  have hspan : (List.range (g.contiguousCountWord first count).toNat).foldl
        (fun s i => invoke (g.eventAt first + BitVec.ofNat 64 i) (argument (BitVec.ofNat 64 i)) s) s
      = (List.range (g.contiguousCountWord first count).toNat).foldl
        (fun s i => invoke (BitVec.ofNat 64 (g.subscript g.wrapping .twoSpan first count.toNat i))
          (argument (BitVec.ofNat 64 i)) s) s := by
    apply List.foldl_ext
    intro s index hindex
    rw [List.mem_range, hcontiguous] at hindex
    rw [subscript, if_pos hindex, ← Wrapping.ofNat_add, ← toNat_eventAt, Wrapping.ofNat_toNat]
  rw [hspan]
  apply List.foldl_ext
  intro s index hindex
  rw [List.mem_range'_1] at hindex
  have hrest : BitVec.ofNat 64 index - g.contiguousCountWord first count
      = BitVec.ofNat 64 (g.subscript g.wrapping .twoSpan first count.toNat index) := by
    apply BitVec.eq_of_toNat_eq
    rw [subscript, if_neg (by omega), ← hcontiguous,
      ← Wrapping.ofNat_toNat (g.contiguousCountWord first count),
      Wrapping.toNat_sub_ofNat (by omega) (by omega), Wrapping.ofNat_toNat, BitVec.toNat_ofNat,
      Nat.mod_eq_of_lt (by omega)]
  rw [hrest]

/-! ### Both walks -/

/-- Both walks make the same visits. -/
theorem visits_twoSpan (hcount : count.toNat ≤ g.capacity) :
  g.visits first count .twoSpan argument = g.visits first count .masked argument
  := by
  apply List.map_congr_left
  intro index hindex
  rw [List.mem_range] at hindex
  have hsame (traversal : Traversal) :
      g.subscript g.wrapping traversal first count.toNat index
        = (first.toNat + index) % g.capacity := by
    rw [← Wrapping.ofNat_toNat first, subscript_wrapping, Wrapping.ofNat_toNat,
      subscript_unbounded _ _ _ hindex hcount]
  rw [hsame, hsame]

theorem foldl_record (visits : List (SequenceType × SequenceType)) :
  visits.foldl (fun visits visit => record visit.1 visit.2 visits) [] = visits
  := by
  simp [record, ← List.flatMap_def]

/-- A visit of the masked walk is one of the slot of `event_at`. -/
theorem visits_masked :
  g.visits first count .masked argument
    = (List.range count.toNat).map fun index =>
        (g.eventAt (first + BitVec.ofNat 64 index), argument (BitVec.ofNat 64 index))
  := by
  apply List.map_congr_left
  intro index _
  rw [← Wrapping.ofNat_toNat (g.eventAt _), toNat_eventAt]
  rfl

theorem eventAt_lt (sequence : SequenceType) : g.eventAt sequence < g.capacityWord := by
  rw [BitVec.lt_def, toNat_eventAt, toNat_capacityWord]
  apply g.wrapping_index_lt

/-- Indices less than the capacity apart have different slots. -/
theorem eventAt_injective {i j : ℕ} (hi : i < g.capacity) (hj : j < g.capacity)
    (h : g.eventAt (first + BitVec.ofNat 64 i) = g.eventAt (first + BitVec.ofNat 64 j)) :
  i = j
  := by
  have hindex (n : ℕ) : (g.eventAt (first + BitVec.ofNat 64 n)).toNat
      = (first.toNat + n) % g.capacity := by
    rw [toNat_eventAt, ← Wrapping.ofNat_toNat first, Wrapping.ofNat_add, wrapping_index,
      Wrapping.ofNat_toNat, unbounded_index]
  have hmod : (first.toNat + i) % g.capacity = (first.toNat + j) % g.capacity := by
    rw [← hindex, ← hindex, h]
  by_contra hne
  rcases Nat.lt_or_gt_of_ne hne with hlt | hlt
  · apply Wrapping.mod_ne_mod (by omega) (by omega) hmod
  · apply Wrapping.mod_ne_mod (by omega) (by omega) hmod.symm

theorem nodup_slots (hcount : count.toNat ≤ g.capacity) :
  ((g.visits first count .masked argument).map Prod.fst).Nodup
  := by
  rw [visits_masked, List.map_map]
  apply List.Nodup.map_on _ List.nodup_range
  intro i hi j hj h
  rw [List.mem_range] at hi hj
  apply eventAt_injective first (by omega) (by omega) h

/-- The two loops of the handles do at the slots `event_at(first + index)`, in the order of the
indices, what the direct operations do there. Their subscripts lie in the ring, no two of them
are the same, and no subtraction underflows. -/
theorem twoSpans_exact (g : Geometry) (first count : SequenceType)
    (hcount : count.toNat ≤ g.capacity) :
  (∀ (σ : Type) (invoke : SequenceType → SequenceType → σ → σ) (s : σ),
    g.handlePublish first count invoke s = g.directPublish first count invoke s
      ∧ g.handleConsume first count invoke s = g.directConsume first count invoke s)
  ∧ g.handlePublish first count record []
      = (List.range count.toNat).map (fun index =>
          (g.eventAt (first + BitVec.ofNat 64 index), BitVec.ofNat 64 index))
  ∧ g.handleConsume first count record []
      = (List.range count.toNat).map (fun index =>
          (g.eventAt (first + BitVec.ofNat 64 index), first + BitVec.ofNat 64 index))
  ∧ (∀ visit ∈ g.handlePublish first count record [] ++ g.handleConsume first count record [],
      visit.1 < g.capacityWord)
  ∧ ((g.handlePublish first count record []).map Prod.fst).Nodup
  ∧ ((g.handleConsume first count record []).map Prod.fst).Nodup
  ∧ first &&& (g.capacityWord - 1) < g.capacityWord
  ∧ g.contiguousCountWord first count ≤ count
  ∧ (0 < count → 0 < g.contiguousCountWord first count)
  := by
  have hvisits (argument : SequenceType → SequenceType) :
      g.twoLoops first count argument record [] = g.visits first count .masked argument := by
    rw [twoLoops_eq, visits_twoSpan first count hcount, foldl_record]
  have hlt (argument : SequenceType → SequenceType) :
      ∀ visit ∈ g.visits first count .masked argument, visit.1 < g.capacityWord := by
    intro visit hvisit
    rw [visits_masked] at hvisit
    obtain ⟨index, -, rfl⟩ := List.mem_map.1 hvisit
    apply eventAt_lt
  have hcontiguous := g.toNat_contiguousCountWord first count
  simp only [handlePublish, handleConsume, directPublish, directConsume]
  refine ⟨?same, ?publish, ?consume, ?subscripts, ?publishOnce, ?consumeOnce, eventAt_lt first,
    ?contiguous, ?positive⟩
  case same =>
    intro σ invoke s
    constructor
    all_goals rw [twoLoops_eq, maskedLoop_eq, visits_twoSpan first count hcount]
  case publish => rw [hvisits, visits_masked]
  case consume => rw [hvisits, visits_masked]
  case subscripts =>
    intro visit hvisit
    rw [hvisits, hvisits, List.mem_append] at hvisit
    rcases hvisit with hvisit | hvisit
    · apply hlt _ visit hvisit
    · apply hlt _ visit hvisit
  case publishOnce =>
    rw [hvisits]
    apply nodup_slots first count hcount
  case consumeOnce =>
    rw [hvisits]
    apply nodup_slots first count hcount
  case contiguous =>
    rw [BitVec.le_def, hcontiguous]
    apply contiguousCount_le
  case positive =>
    intro hpositive
    have hindex := g.wrapping_index_lt first
    rw [BitVec.lt_def] at hpositive ⊢
    rw [hcontiguous, contiguousCount]
    split_ifs
    · apply hpositive
    · have hzero : (0 : SequenceType).toNat = 0 := BitVec.toNat_zero
      omega

/-- A batch of two from the last position of a word. -/
theorem twoSpans_exact_acrossWrap :
  Geometry.pair.handleConsume (BitVec.ofNat 64 (2 ^ 64 - 1)) 2 record []
    = [(1, BitVec.ofNat 64 (2 ^ 64 - 1)), (0, 0)]
  := (twoSpans_exact Geometry.pair (BitVec.ofNat 64 (2 ^ 64 - 1)) 2 (by decide)).2.2.1

end Geometry

end Disruptor
