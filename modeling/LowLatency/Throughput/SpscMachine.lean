import Mathlib.Data.List.Infix
import LowLatency.Library.Location
import LowLatency.Library.Transition
import LowLatency.Throughput.Rings

/-!
# The ring of a single producer and a single consumer, step by step

One thread pushes and another one pops. A step is one access to the memory they share: a load of
a counter, an access to a slot, a store of a counter. The counter of the other thread may be
read late. The values popped are a prefix of those pushed, and no slot is written while it holds
a value that is not popped.
-/

namespace Throughput

/-! ### The thread that pushes -/

/-- Where the pusher stands in `try_push`: before the access of that name. -/
inductive PusherPc where
  | idle
  | loadWrite (value : UInt64)
  | loadRead (value : UInt64) (write : Word)
  | writeSlot (value : UInt64) (write : Word)
  | storeWrite (value : UInt64) (next : Word)

/-- The pusher with the memory it writes. Of `read_` it has last read the value at place `view`;
`returned` are the values of its attempts and what `try_push` returned. -/
structure Pusher where
  pc : PusherPc
  values : ℕ → UInt64
  write : Location Word
  view : ℕ
  returned : List (UInt64 × Bool)

namespace Pusher

def initial : Pusher where
  pc := .idle
  values _ := 0
  write := Location.init 0
  view := 0
  returned := []

/-- The values of the attempts that succeeded. -/
def pushed (p : Pusher) : List UInt64 :=
  p.returned.filterMap fun attempt => if attempt.2 then some attempt.1 else none

/-- The load of `read_`, and the comparison after it. -/
def loadRead (p : Pusher) (value : UInt64) (write : Word) (place : ℕ) (read : Word) : Pusher :=
  let next := write + 1
  if next - read > capacity then
    { p with pc := .idle, view := place, returned := p.returned ++ [(value, false)] }
  else
    { p with pc := .writeSlot value write, view := place }

def writeSlot (p : Pusher) (value : UInt64) (write : Word) : Pusher :=
  { p with
    pc := .storeWrite value (write + 1)
    values := Function.update p.values (write &&& (capacity - 1)).toNat value }

def storeWrite (p : Pusher) (value : UInt64) (next : Word) : Pusher :=
  { p with pc := .idle, write := p.write.store next, returned := p.returned ++ [(value, true)] }

/-- The next access of an attempt. A load of `read_` reads the value at place `place`. -/
def resume (read : Location Word) (p : Pusher) (place : ℕ) : Option Pusher :=
  match p.pc with
  | .idle => none
  | .loadWrite value => some { p with pc := .loadRead value p.write.current }
  | .loadRead value write => (read.load p.view place).map (p.loadRead value write place)
  | .writeSlot value write => some (p.writeSlot value write)
  | .storeWrite value next => some (p.storeWrite value next)

/-- The call of `try_push`. -/
def tryPush (p : Pusher) (value : UInt64) : Option Pusher :=
  match p.pc with
  | .idle => some { p with pc := .loadWrite value }
  | _ => none

end Pusher

/-! ### The thread that pops -/

/-- Where the popper stands in `try_pop`: before the access of that name. -/
inductive PopperPc where
  | idle
  | loadRead
  | loadWrite (read : Word)
  | readSlot (read : Word)
  | storeRead (read : Word) (value : UInt64)

/-- The popper with the counter it stores. Of `write_` it has last read the value at place
`view`; `returned` are the results of its attempts. -/
structure Popper where
  pc : PopperPc
  read : Location Word
  view : ℕ
  returned : List (Option UInt64)

namespace Popper

def initial : Popper where
  pc := .idle
  read := Location.init 0
  view := 0
  returned := []

/-- The values of the attempts that succeeded. -/
def popped (c : Popper) : List UInt64 :=
  c.returned.filterMap id

/-- The load of `write_`, and the comparison after it. -/
def loadWrite (c : Popper) (read : Word) (place : ℕ) (write : Word) : Popper :=
  if read = write then
    { c with pc := .idle, view := place, returned := c.returned ++ [none] }
  else
    { c with pc := .readSlot read, view := place }

def storeRead (c : Popper) (read : Word) (value : UInt64) : Popper :=
  { c with
    pc := .idle
    read := c.read.store (read + 1)
    returned := c.returned ++ [some value] }

/-- The next access of an attempt. A load of `write_` reads the value at place `place`. -/
def resume (values : ℕ → UInt64) (write : Location Word) (c : Popper) (place : ℕ) :
    Option Popper :=
  match c.pc with
  | .idle => none
  | .loadRead => some { c with pc := .loadWrite c.read.current }
  | .loadWrite read => (write.load c.view place).map (c.loadWrite read place)
  | .readSlot read =>
      some { c with pc := .storeRead read (values (read &&& (capacity - 1)).toNat) }
  | .storeRead read value => some (c.storeRead read value)

/-- The call of `try_pop`. -/
def tryPop (c : Popper) : Option Popper :=
  match c.pc with
  | .idle => some { c with pc := .loadRead }
  | _ => none

end Popper

/-! ### Both threads -/

structure SpscState where
  pusher : Pusher
  popper : Popper

inductive SpscAction where
  | push (value : UInt64)
  | resumePush (place : ℕ)
  | pop
  | resumePop (place : ℕ)

namespace SpscState

def initial : SpscState where
  pusher := Pusher.initial
  popper := Popper.initial

def step (action : SpscAction) (s : SpscState) : Option SpscState :=
  match action with
  | .push value => (s.pusher.tryPush value).map fun p => { s with pusher := p }
  | .resumePush place =>
      (s.pusher.resume s.popper.read place).map fun p => { s with pusher := p }
  | .pop => s.popper.tryPop.map fun c => { s with popper := c }
  | .resumePop place =>
      (s.popper.resume s.pusher.values s.pusher.write place).map fun c => { s with popper := c }

/-- Every interleaving of the accesses of both threads. -/
def machine : TransitionSystem SpscState SpscAction where
  initial := initial
  step := step

/-! ### The invariant -/

/-- A counter that has been stored `n` times. -/
def CountsTo (l : Location Word) (n : ℕ) : Prop :=
  ∃ m : Location ℕ, m.Counts n ∧ l = m.map (BitVec.ofNat 64)

theorem countsTo_init : CountsTo (Location.init 0) 0 := by
  use Location.init 0, Location.counts_init
  rfl

section CountsTo

variable {l : Location Word} {n : ℕ}

theorem CountsTo.current (h : CountsTo l n) : l.current = BitVec.ofNat 64 n := by
  obtain ⟨m, hm, rfl⟩ := h
  rw [Location.current_map, Location.current, hm.last, hm.value le_rfl]

theorem CountsTo.last (h : CountsTo l n) : l.last = n := by
  obtain ⟨m, hm, rfl⟩ := h
  rw [Location.last_map, hm.last]

theorem CountsTo.store (h : CountsTo l n) :
  CountsTo (l.store (BitVec.ofNat 64 (n + 1))) (n + 1)
  := by
  obtain ⟨m, hm, rfl⟩ := h
  use m.store (n + 1), hm.store
  rw [Location.map_store]

/-- The place at which the counter is read is the number read. -/
theorem CountsTo.load {view place : ℕ} {v : Word} (h : CountsTo l n)
    (hload : l.load view place = some v) :
  v = BitVec.ofNat 64 place ∧ view ≤ place ∧ place ≤ n
  := by
  obtain ⟨m, hm, rfl⟩ := h
  obtain ⟨hview, hplace, rfl⟩ := Location.load_eq_some_iff.mp hload
  rw [Location.last_map, hm.last] at hplace
  refine ⟨?_, hview, hplace⟩
  rw [Location.value_map, hm.value hplace]

end CountsTo

def pushed (s : SpscState) : List UInt64 := s.pusher.pushed

def popped (s : SpscState) : List UInt64 := s.popper.popped

/-- What holds of the pusher by where it stands. -/
def PusherAt (p : Pusher) : PusherPc → Prop
  | .idle => True
  | .loadWrite _ => True
  | .loadRead _ write => write = BitVec.ofNat 64 p.pushed.length
  | .writeSlot _ write =>
      write = BitVec.ofNat 64 p.pushed.length ∧ p.pushed.length < p.view + 65536
  | .storeWrite value next =>
      next = BitVec.ofNat 64 (p.pushed.length + 1) ∧ p.pushed.length < p.view + 65536
        ∧ p.values (p.pushed.length % 65536) = value

/-- What holds of the popper by where it stands. -/
def PopperAt (pushed : List UInt64) (c : Popper) : PopperPc → Prop
  | .idle => True
  | .loadRead => True
  | .loadWrite read => read = BitVec.ofNat 64 c.popped.length
  | .readSlot read => read = BitVec.ofNat 64 c.popped.length ∧ c.popped.length < c.view
  | .storeRead read value =>
      read = BitVec.ofNat 64 c.popped.length ∧ c.popped.length < c.view
        ∧ pushed[c.popped.length]? = some value

/-- What each thread knows of the other: the slots the pusher has seen released, and the values
the popper has seen pushed. -/
structure Inv (s : SpscState) : Prop where
  write : CountsTo s.pusher.write s.pushed.length
  read : CountsTo s.popper.read s.popped.length
  pusher_view : s.pusher.view ≤ s.popped.length
  popper_view : s.popper.view ≤ s.pushed.length
  room : s.pushed.length ≤ s.pusher.view + 65536
  seen : s.popped.length ≤ s.popper.view
  popped_prefix : s.popped <+: s.pushed
  holds : BoundedQueue.Holds 65536 s.pusher.values s.popped.length
    (s.pushed.drop s.popped.length)
  pusherAt : PusherAt s.pusher s.pusher.pc
  popperAt : PopperAt s.pushed s.popper s.popper.pc

theorem inv_initial : initial.Inv := by
  constructor
  · apply countsTo_init
  · apply countsTo_init
  · apply le_rfl
  · apply le_rfl
  · apply Nat.zero_le
  · apply le_rfl
  · apply List.prefix_rfl
  · apply BoundedQueue.holds_nil
  · trivial
  · trivial

/-! ### The steps of the pusher -/

variable {s s' : SpscState} {p : Pusher} {c : Popper} {value : UInt64} {word : Word} {place : ℕ}

/-- A step of the pusher that neither writes nor stores. -/
theorem Inv.pusher (h : s.Inv) (hvalues : p.values = s.pusher.values)
    (hwrite : p.write = s.pusher.write) (hpushed : p.pushed = s.pusher.pushed)
    (hview : s.pusher.view ≤ p.view) (hle : p.view ≤ s.popped.length) (hat : PusherAt p p.pc) :
  Inv { s with pusher := p }
  := by
  have hsame : SpscState.pushed { s with pusher := p } = s.pushed := hpushed
  have hroom := h.room
  constructor
  · rw [hsame, hwrite]
    apply h.write
  · apply h.read
  · apply hle
  · rw [hsame]
    apply h.popper_view
  · rw [hsame]
    change s.pushed.length ≤ p.view + 65536
    omega
  · apply h.seen
  · rw [hsame]
    apply h.popped_prefix
  · rw [hsame, hvalues]
    apply h.holds
  · apply hat
  · rw [hsame]
    apply h.popperAt

theorem Inv.loadRead (h : s.Inv) (hpc : s.pusher.pc = .loadRead value word) {read : Word}
    (hload : s.popper.read.load s.pusher.view place = some read) :
  Inv { s with pusher := s.pusher.loadRead value word place read }
  := by
  obtain ⟨rfl, hview, hplace⟩ := h.read.load hload
  have hat := h.pusherAt
  rw [hpc] at hat
  have hroom := h.room
  have hlength := h.popped_prefix.length_le
  have hnext : word + 1 = BitVec.ofNat 64 (s.pushed.length + 1) := by
    rw [hat]
    apply Wrapping.ofNat_add
  have hdistance : (word + 1 - BitVec.ofNat 64 place).toNat = s.pushed.length + 1 - place := by
    rw [hnext, Wrapping.toNat_sub_ofNat]
    · omega
    · omega
  have hcapacity : capacity.toNat = 65536 := rfl
  simp only [Pusher.loadRead]
  split_ifs with hfull
  · apply h.pusher
    · rfl
    · rfl
    · simp [Pusher.pushed]
    · apply hview
    · apply hplace
    · trivial
  · rw [gt_iff_lt, BitVec.lt_def, hdistance, hcapacity] at hfull
    apply h.pusher
    · rfl
    · rfl
    · rfl
    · apply hview
    · apply hplace
    · use hat
      change s.pushed.length < place + 65536
      omega

/-- The queue between both counters. -/
theorem Inv.length_drop (h : s.Inv) :
  s.popped.length + (s.pushed.drop s.popped.length).length = s.pushed.length
  := by
  have hlength := h.popped_prefix.length_le
  rw [List.length_drop]
  omega

theorem Inv.writeSlot (h : s.Inv) (hpc : s.pusher.pc = .writeSlot value word) :
  Inv { s with pusher := s.pusher.writeSlot value word }
  := by
  have hat := h.pusherAt
  rw [hpc] at hat
  obtain ⟨hword, hroom⟩ := hat
  have hlength := h.length_drop
  have hview := h.pusher_view
  have hslot : (word &&& (capacity - 1)).toNat = s.pushed.length % 65536 := by
    rw [hword, toNat_and_mask]
    rfl
  have hsame : SpscState.pushed { s with pusher := s.pusher.writeSlot value word } = s.pushed := rfl
  constructor
  · apply h.write
  · apply h.read
  · apply h.pusher_view
  · apply h.popper_view
  · apply h.room
  · apply h.seen
  · apply h.popped_prefix
  · rw [hsame]
    simp only [Pusher.writeSlot, hslot, ← hlength]
    apply h.holds.write
    have hpushed : s.pusher.pushed.length = s.pushed.length := rfl
    omega
  · refine ⟨?_, hroom, ?_⟩
    · rw [hword]
      apply Wrapping.ofNat_add
    · simp only [Pusher.writeSlot, hslot]
      apply Function.update_self
  · apply h.popperAt

theorem pushed_storeWrite (p : Pusher) (value : UInt64) (next : Word) :
  (p.storeWrite value next).pushed = p.pushed ++ [value]
  := by
  simp [Pusher.pushed, Pusher.storeWrite]

theorem PopperAt.concat {pushed : List UInt64} {pc : PopperPc} (h : PopperAt pushed c pc)
    (value : UInt64) :
  PopperAt (pushed ++ [value]) c pc
  := by
  cases pc with
  | storeRead read last =>
      obtain ⟨hread, hview, hlast⟩ := h
      obtain ⟨hlt, -⟩ := List.getElem?_eq_some_iff.mp hlast
      refine ⟨hread, hview, ?_⟩
      rw [List.getElem?_append_left hlt]
      apply hlast
  | _ => apply h

theorem Inv.storeWrite (h : s.Inv) (hpc : s.pusher.pc = .storeWrite value word) :
  Inv { s with pusher := s.pusher.storeWrite value word }
  := by
  have hat := h.pusherAt
  rw [hpc] at hat
  obtain ⟨hword, hroom, hslot⟩ := hat
  have hlength := h.popped_prefix.length_le
  have hdrop := h.length_drop
  have hpushed : SpscState.pushed { s with pusher := s.pusher.storeWrite value word }
      = s.pushed ++ [value] := pushed_storeWrite _ _ _
  have hcount : (s.pushed ++ [value]).length = s.pushed.length + 1 := List.length_append
  constructor
  · rw [hpushed, hcount, Pusher.storeWrite, hword]
    apply h.write.store
  · apply h.read
  · apply h.pusher_view
  · rw [hpushed, hcount]
    apply Nat.le_succ_of_le h.popper_view
  · rw [hpushed, hcount]
    apply hroom
  · apply h.seen
  · rw [hpushed]
    apply h.popped_prefix.trans (List.prefix_append _ _)
  · have hqueue : (s.pushed ++ [value]).drop s.popped.length
        = s.pushed.drop s.popped.length ++ [value] := List.drop_append_of_le_length hlength
    rw [hpushed]
    change BoundedQueue.Holds 65536 s.pusher.values s.popped.length
      ((s.pushed ++ [value]).drop s.popped.length)
    rw [hqueue]
    apply h.holds.concat
    rw [hdrop]
    apply hslot
  · trivial
  · rw [hpushed]
    apply h.popperAt.concat

/-! ### The steps of the popper -/

/-- A step of the popper that does not store. -/
theorem Inv.popper (h : s.Inv) (hread : c.read = s.popper.read)
    (hpopped : c.popped = s.popper.popped) (hview : s.popper.view ≤ c.view)
    (hle : c.view ≤ s.pushed.length) (hat : PopperAt s.pushed c c.pc) :
  Inv { s with popper := c }
  := by
  have hsame : SpscState.popped { s with popper := c } = s.popped := hpopped
  constructor
  · apply h.write
  · rw [hsame, hread]
    apply h.read
  · rw [hsame]
    apply h.pusher_view
  · apply hle
  · apply h.room
  · rw [hsame]
    apply le_trans h.seen hview
  · rw [hsame]
    apply h.popped_prefix
  · rw [hsame]
    apply h.holds
  · apply h.pusherAt
  · apply hat

theorem Inv.loadWrite (h : s.Inv) (hpc : s.popper.pc = .loadWrite word) {write : Word}
    (hload : s.pusher.write.load s.popper.view place = some write) :
  Inv { s with popper := s.popper.loadWrite word place write }
  := by
  obtain ⟨rfl, hview, hplace⟩ := h.write.load hload
  have hat := h.popperAt
  rw [hpc] at hat
  have hseen := h.seen
  rw [Popper.loadWrite]
  split_ifs with hempty
  · apply h.popper
    · rfl
    · simp [Popper.popped]
    · apply hview
    · apply hplace
    · trivial
  · have hne : s.popped.length ≠ place := by
      rintro rfl
      apply hempty hat
    apply h.popper
    · rfl
    · rfl
    · apply hview
    · apply hplace
    · use hat
      change s.popped.length < place
      omega

/-- The value at the head of the queue. -/
theorem Inv.head (h : s.Inv) (hlt : s.popped.length < s.pushed.length) :
  s.pushed[s.popped.length]? = some (s.pusher.values (s.popped.length % 65536))
  := by
  have hholds := h.holds
  rw [List.drop_eq_getElem_cons hlt] at hholds
  rw [hholds.head, List.getElem?_eq_getElem hlt]

theorem Inv.readSlot (h : s.Inv) (hpc : s.popper.pc = .readSlot word) :
  Inv { s with
    popper := { s.popper with
      pc := .storeRead word (s.pusher.values (word &&& (capacity - 1)).toNat) } }
  := by
  have hat := h.popperAt
  rw [hpc] at hat
  obtain ⟨hword, hlt⟩ := hat
  have hslot : (word &&& (capacity - 1)).toNat = s.popped.length % 65536 := by
    rw [hword, toNat_and_mask]
    rfl
  apply h.popper
  · rfl
  · rfl
  · apply le_rfl
  · apply h.popper_view
  · refine ⟨hword, hlt, ?_⟩
    rw [hslot]
    apply h.head (lt_of_lt_of_le hlt h.popper_view)

theorem popped_storeRead (c : Popper) (read : Word) (value : UInt64) :
  (c.storeRead read value).popped = c.popped ++ [value]
  := by
  simp [Popper.popped, Popper.storeRead]

theorem Inv.storeRead (h : s.Inv) (hpc : s.popper.pc = .storeRead word value) :
  Inv { s with popper := s.popper.storeRead word value }
  := by
  have hat := h.popperAt
  rw [hpc] at hat
  obtain ⟨hword, hlt, hhead⟩ := hat
  obtain ⟨hpushed, hvalue⟩ : ∃ h : s.popped.length < s.pushed.length,
      s.pushed[s.popped.length] = value := List.getElem?_eq_some_iff.mp hhead
  have hpopped : SpscState.popped { s with popper := s.popper.storeRead word value }
      = s.popped ++ [value] := popped_storeRead _ _ _
  have hcount : (s.popped ++ [value]).length = s.popped.length + 1 := List.length_append
  constructor
  · apply h.write
  · rw [hpopped, hcount]
    change CountsTo (s.popper.read.store (word + 1)) _
    rw [hword, show (BitVec.ofNat 64 s.popper.popped.length + 1 : Word)
      = BitVec.ofNat 64 (s.popped.length + 1) from Wrapping.ofNat_add _ _]
    apply h.read.store
  · rw [hpopped, hcount]
    apply Nat.le_succ_of_le h.pusher_view
  · apply h.popper_view
  · apply h.room
  · rw [hpopped, hcount]
    apply hlt
  · rw [hpopped, ← hvalue]
    apply List.concat_get_prefix h.popped_prefix hpushed
  · have hholds := h.holds
    rw [List.drop_eq_getElem_cons hpushed] at hholds
    rw [hpopped, hcount]
    apply hholds.pop
  · apply h.pusherAt
  · trivial

/-! ### Every run -/

theorem Inv.resumePush (h : s.Inv) (hp : s.pusher.resume s.popper.read place = some p) :
  Inv { s with pusher := p }
  := by
  cases hpc : s.pusher.pc with
  | idle =>
      rw [Pusher.resume, hpc] at hp
      cases hp
  | loadWrite value =>
      rw [Pusher.resume, hpc] at hp
      obtain rfl := Option.some.inj hp
      apply h.pusher
      · rfl
      · rfl
      · rfl
      · apply le_rfl
      · apply h.pusher_view
      · apply h.write.current
  | loadRead value write =>
      rw [Pusher.resume, hpc] at hp
      obtain ⟨read, hload, rfl⟩ := Option.map_eq_some_iff.mp hp
      apply h.loadRead hpc hload
  | writeSlot value write =>
      rw [Pusher.resume, hpc] at hp
      obtain rfl := Option.some.inj hp
      apply h.writeSlot hpc
  | storeWrite value next =>
      rw [Pusher.resume, hpc] at hp
      obtain rfl := Option.some.inj hp
      apply h.storeWrite hpc

theorem Inv.resumePop (h : s.Inv)
    (hc : s.popper.resume s.pusher.values s.pusher.write place = some c) :
  Inv { s with popper := c }
  := by
  cases hpc : s.popper.pc with
  | idle =>
      rw [Popper.resume, hpc] at hc
      cases hc
  | loadRead =>
      rw [Popper.resume, hpc] at hc
      obtain rfl := Option.some.inj hc
      apply h.popper
      · rfl
      · rfl
      · apply le_rfl
      · apply h.popper_view
      · apply h.read.current
  | loadWrite read =>
      rw [Popper.resume, hpc] at hc
      obtain ⟨write, hload, rfl⟩ := Option.map_eq_some_iff.mp hc
      apply h.loadWrite hpc hload
  | readSlot read =>
      rw [Popper.resume, hpc] at hc
      obtain rfl := Option.some.inj hc
      apply h.readSlot hpc
  | storeRead read value =>
      rw [Popper.resume, hpc] at hc
      obtain rfl := Option.some.inj hc
      apply h.storeRead hpc

theorem Inv.step {action : SpscAction} (h : s.Inv) (hstep : s.step action = some s') :
  s'.Inv
  := by
  cases action with
  | push value =>
      obtain ⟨p, hp, rfl⟩ := Option.map_eq_some_iff.mp hstep
      rw [Pusher.tryPush] at hp
      split at hp
      · obtain rfl := Option.some.inj hp
        apply h.pusher
        · rfl
        · rfl
        · rfl
        · apply le_rfl
        · apply h.pusher_view
        · trivial
      · cases hp
  | resumePush place =>
      obtain ⟨p, hp, rfl⟩ := Option.map_eq_some_iff.mp hstep
      apply h.resumePush hp
  | pop =>
      obtain ⟨c, hc, rfl⟩ := Option.map_eq_some_iff.mp hstep
      rw [Popper.tryPop] at hc
      split at hc
      · obtain rfl := Option.some.inj hc
        apply h.popper
        · rfl
        · rfl
        · apply le_rfl
        · apply h.popper_view
        · trivial
      · cases hc
  | resumePop place =>
      obtain ⟨c, hc, rfl⟩ := Option.map_eq_some_iff.mp hstep
      apply h.resumePop hc

theorem inv_of_reachable (hs : machine.Reachable s) : s.Inv := by
  apply hs.invariant inv_initial
  intro action s t h hstep
  apply h.step hstep

/-- The slot about to be written holds none of the values pushed and not popped. -/
theorem Inv.slot_ne (h : s.Inv) (hpc : s.pusher.pc = .writeSlot value word) {k : ℕ}
    (hpopped : s.popped.length ≤ k) (hpushed : k < s.pushed.length) :
  (word &&& (capacity - 1)).toNat ≠ k % 65536
  := by
  have hat := h.pusherAt
  rw [hpc] at hat
  obtain ⟨hword, hroom⟩ := hat
  have hview := h.pusher_view
  have hlast : s.pusher.pushed.length = s.pushed.length := rfl
  rw [hword, toNat_and_mask]
  symm
  apply Wrapping.mod_ne_mod
  · omega
  · omega

/-- Each value pushed and not popped is in its slot. -/
theorem Inv.slot_eq (h : s.Inv) {k : ℕ} (hpopped : s.popped.length ≤ k)
    (hpushed : k < s.pushed.length) :
  s.pusher.values (k % 65536) = s.pushed[k]
  := by
  have hholds := h.holds (k - s.popped.length) (by rw [List.length_drop]; omega)
  simp only [List.getElem_drop, Nat.add_sub_cancel' hpopped] at hholds
  apply hholds

/-- At most 65536 values are pushed and not popped. -/
theorem Inv.outstanding_le (h : s.Inv) : s.pushed.length ≤ s.popped.length + 65536 := by
  have hroom := h.room
  have hview := h.pusher_view
  omega

/-! ### Attempts that run alone -/

/-- The ring between attempts. -/
def ring (s : SpscState) : SpscRing where
  values := s.pusher.values
  read := s.popper.read.current
  write := s.pusher.write.current

/-- The state after the attempt of the pusher returns, when the popper takes no step. -/
def returnPush (s : SpscState) : SpscState :=
  TransitionSystem.settle (fun t => t.step (.resumePush t.popper.read.last)) 4 s

/-- The state after the attempt of the popper returns, when the pusher takes no step. -/
def returnPop (s : SpscState) : SpscState :=
  TransitionSystem.settle (fun t => t.step (.resumePop t.pusher.write.last)) 4 s

/-- A push that runs alone is `tryPush`. -/
theorem Inv.returnPush_eq (h : s.Inv) (hidle : s.pusher.pc = .idle) (value : UInt64) :
  ∃ t, s.step (.push value) = some t ∧ t.returnPush.ring = (s.ring.tryPush value).2
    ∧ t.returnPush.pusher.returned
      = s.pusher.returned ++ [(value, (s.ring.tryPush value).1)]
    ∧ t.returnPush.pusher.pc = .idle
  := by
  use { s with pusher := { s.pusher with pc := .loadWrite value } }
  have hview := h.pusher_view
  rw [← h.read.last] at hview
  have hload := Location.load_last hview
  constructor
  · simp only [SpscState.step, Pusher.tryPush, hidle, Option.map_some]
  · by_cases hfull : s.pusher.write.current + 1 - s.popper.read.current > capacity
    · have hread (p : Pusher) (place : ℕ) :
          p.loadRead value s.pusher.write.current place s.popper.read.current
            = { p with pc := .idle, view := place, returned := p.returned ++ [(value, false)] } :=
        if_pos hfull
      have htry : s.ring.tryPush value = (false, s.ring) := if_pos hfull
      rw [htry]
      simp only [returnPush, TransitionSystem.settle, SpscState.step, Pusher.resume,
        Option.map_some, Option.map_none, hload, hread, and_true]
      rfl
    · have hread (p : Pusher) (place : ℕ) :
          p.loadRead value s.pusher.write.current place s.popper.read.current
            = { p with pc := .writeSlot value s.pusher.write.current, view := place } :=
        if_neg hfull
      have htry : s.ring.tryPush value
          = (true,
              { s.ring with
                values := Function.update s.pusher.values
                  (s.pusher.write.current &&& (capacity - 1)).toNat value
                write := s.pusher.write.current + 1 }) := if_neg hfull
      rw [htry]
      simp only [returnPush, TransitionSystem.settle, SpscState.step, Pusher.resume,
        Option.map_some, hload, hread, Pusher.writeSlot, Pusher.storeWrite, ring,
        Location.current_store, and_self]

/-- A pop that runs alone is `tryPop`. -/
theorem Inv.returnPop_eq (h : s.Inv) (hidle : s.popper.pc = .idle) :
  ∃ t, s.step .pop = some t ∧ t.returnPop.ring = s.ring.tryPop.2
    ∧ t.returnPop.popper.returned = s.popper.returned ++ [s.ring.tryPop.1]
    ∧ t.returnPop.popper.pc = .idle
  := by
  use { s with popper := { s.popper with pc := .loadRead } }
  have hview := h.popper_view
  rw [← h.write.last] at hview
  have hload := Location.load_last hview
  constructor
  · simp only [SpscState.step, Popper.tryPop, hidle, Option.map_some]
  · by_cases hempty : s.popper.read.current = s.pusher.write.current
    · simp [returnPop, TransitionSystem.settle, SpscState.step, Popper.resume, hload,
        Popper.loadWrite, hempty, SpscRing.tryPop, ring]
    · simp [returnPop, TransitionSystem.settle, SpscState.step, Popper.resume, hload,
        Popper.loadWrite, hempty, Popper.storeRead, SpscRing.tryPop, ring]

end SpscState

end Throughput
