import LowLatency.Library.Progress
import Mathlib.Algebra.BigOperators.Group.Finset.Piecewise
import Mathlib.Algebra.Order.BigOperators.Group.Finset
import Mathlib.Data.Fintype.Basic

/-!
# Monitors

A monitor protects data by a mutex. A thread performs a command on the data: it takes the mutex
and tests the guard of the command; while the guard does not hold it sleeps on a condition, which
gives the mutex up until the thread is woken; then it updates the data, notifies one thread that
sleeps on another condition, and gives the mutex up. A thread may also be woken for no reason.

* A command updates the data only where its guard holds.
* No wake-up is lost, if every condition has one thread that sleeps on it, and a command which
  makes a guard true notifies the condition of that guard.
* Where a thread is inside a command some thread has a step, unless all of them sleep on guards
  that do not hold.
* A measure bounds the steps of the commands, where every wake-up for no reason may cost some.
-/

universe u v w x

/-- A command on the data of a monitor. -/
structure Command (Condition : Type u) (Data : Type v) (Result : Type w) where
  guard : Data → Bool
  /-- The condition to sleep on while the guard does not hold. -/
  condition : Condition
  update : Data → Result × Data
  /-- The condition to notify. -/
  notifies : Condition

/-- Where a thread stands in a command. -/
inductive Phase (Condition : Type u) (Data : Type v) (Result : Type w) where
  /-- With the result of the last command. -/
  | outside (result : Option Result)
  /-- Before it takes the mutex. -/
  | locking (command : Command Condition Data Result)
  | testing (command : Command Condition Data Result)
  | asleep (command : Command Condition Data Result)
  | updating (command : Command Condition Data Result)
  | notifying (command : Command Condition Data Result) (result : Result)
  /-- Before it gives the mutex up. -/
  | leaving (result : Result)

namespace Phase

variable {Condition : Type u} {Data : Type v} {Result : Type w}

/-- The thread owns the mutex. -/
def inside : Phase Condition Data Result → Bool
  | testing _ | updating _ | notifying _ _ | leaving _ => true
  | _ => false

/-- The command the thread stands in. -/
def command : Phase Condition Data Result → Option (Command Condition Data Result)
  | locking command | testing command | asleep command | updating command
  | notifying command _ => some command
  | _ => none

/-- The thread sleeps on the condition. -/
def SleepsOn (condition : Condition) : Phase Condition Data Result → Prop
  | asleep command => command.condition = condition
  | _ => False

instance [DecidableEq Condition] (condition : Condition) :
    DecidablePred (SleepsOn condition : Phase Condition Data Result → Prop) := fun p =>
  match p with
  | asleep command => inferInstanceAs (Decidable (command.condition = condition))
  | outside _ | locking _ | testing _ | updating _ | notifying _ _ | leaving _ => isFalse id

theorem sleepsOn_iff {condition : Condition} {p : Phase Condition Data Result} :
  p.SleepsOn condition ↔ ∃ command, p = .asleep command ∧ command.condition = condition
  := by
  cases p with
  | asleep command => simp [SleepsOn]
  | _ => simp [SleepsOn]

/-- The steps left in a command, with those of a thread that it may wake. -/
def rank : Phase Condition Data Result → ℕ
  | outside _ => 0
  | locking _ => 7
  | testing _ => 6
  | asleep _ => 5
  | updating _ => 5
  | notifying _ _ => 4
  | leaving _ => 1

end Phase

/-- What a command looks like that is performed at once. -/
inductive Stage (Condition : Type u) (Data : Type v) (Result : Type w) where
  /-- With the result of the last command. -/
  | idle (result : Option Result)
  /-- The command is not performed yet. -/
  | pending (command : Command Condition Data Result)
  /-- The command is performed and has not returned. -/
  | done (result : Result)

/-- The stage of a thread in a phase. -/
def Phase.stage {Condition : Type u} {Data : Type v} {Result : Type w} :
    Phase Condition Data Result → Stage Condition Data Result
  | outside result => .idle result
  | locking command | testing command | asleep command | updating command => .pending command
  | notifying _ result | leaving result => .done result

theorem Phase.stage_eq_idle {Condition : Type u} {Data : Type v} {Result : Type w}
    {p : Phase Condition Data Result} {result : Option Result} :
  p.stage = .idle result ↔ p = .outside result
  := by
  cases p with
  | outside result' => simp [stage]
  | _ => simp [stage]

/-- A thread whose command is performed and has not returned owns the mutex. -/
theorem Phase.inside_of_done {Condition : Type u} {Data : Type v} {Result : Type w}
    {p : Phase Condition Data Result} {result : Result} (hdone : p.stage = .done result) :
  p.inside = true
  := by
  cases p with
  | outside _ | locking _ | testing _ | asleep _ | updating _ => cases hdone
  | notifying _ _ | leaving _ => rfl

theorem Phase.command_of_pending {Condition : Type u} {Data : Type v} {Result : Type w}
    {p : Phase Condition Data Result} {command : Command Condition Data Result}
    (hpending : p.stage = .pending command) :
  p.command = some command
  := by
  cases p with
  | outside _ | notifying _ _ | leaving _ => cases hpending
  | locking _ | testing _ | asleep _ | updating _ =>
      obtain rfl := Stage.pending.inj hpending
      rfl

/-- The data with the mutex, and where each thread stands. -/
structure Monitor (Thread : Type x) (Condition : Type u) (Data : Type v) (Result : Type w) where
  owner : Option Thread
  data : Data
  phase : Thread → Phase Condition Data Result

namespace Monitor

variable {Thread : Type x} {Condition : Type u} {Data : Type v} {Result : Type w}
  {m m' : Monitor Thread Condition Data Result} {t t' : Thread}

/-- All threads are outside. -/
def init (data : Data) : Monitor Thread Condition Data Result where
  owner := none
  data := data
  phase _ := .outside none

/-! ### What holds of every monitor -/

/-- How threads use a monitor: each condition has one thread that sleeps on it, and a command
that makes a guard true notifies its condition. -/
structure Discipline (Uses : Thread → Command Condition Data Result → Prop) : Prop where
  alone : ∀ {t t' command command'}, Uses t command → Uses t' command' →
    command.condition = command'.condition → t = t'
  notifies : ∀ {t t' command command' data}, Uses t command → Uses t' command' →
    command.guard data = false → command.guard (command'.update data).2 = true →
    command'.notifies = command.condition

/-- A thread is about to notify the condition. -/
def Notified (m : Monitor Thread Condition Data Result) (condition : Condition) : Prop :=
  ∃ t command result, m.phase t = .notifying command result ∧ command.notifies = condition

/-- The invariant of a monitor. -/
structure Inv (Uses : Thread → Command Condition Data Result → Prop)
    (m : Monitor Thread Condition Data Result) : Prop where
  owner : ∀ t, m.owner = some t ↔ (m.phase t).inside = true
  uses : ∀ t command, (m.phase t).command = some command → Uses t command
  guard : ∀ t command, m.phase t = .updating command → command.guard m.data = true
  awaited : ∀ t command, m.phase t = .asleep command →
    command.guard m.data = false ∨ m.Notified command.condition

variable {Uses : Thread → Command Condition Data Result → Prop}

theorem inv_init (Uses : Thread → Command Condition Data Result → Prop) (data : Data) :
  (init data : Monitor Thread Condition Data Result).Inv Uses
  := by
  constructor
  · intro t
    simp [init, Phase.inside]
  · intro t command hcommand
    cases hcommand
  · intro t command hphase
    cases hphase
  · intro t command hphase
    cases hphase

/-- At most one thread is inside. -/
theorem Inv.eq_of_inside (h : m.Inv Uses) (hinside : (m.phase t).inside = true)
    (hinside' : (m.phase t').inside = true) :
  t = t'
  := by
  have howner := (h.owner t).mpr hinside
  rw [(h.owner t').mpr hinside'] at howner
  exact (Option.some.inj howner).symm

/-- Where a thread is inside and does not notify, no thread does. -/
theorem Inv.not_notified (h : m.Inv Uses) (hinside : (m.phase t).inside = true)
    (hnot : ∀ command result, m.phase t ≠ .notifying command result) (condition : Condition) :
  ¬m.Notified condition
  := by
  rintro ⟨t', command, result, hphase, -⟩
  obtain rfl : t = t' := by
    apply h.eq_of_inside hinside
    rw [hphase]
    rfl
  apply hnot command result hphase

/-- What a step of a command does to the data and the stages: nothing, or it performs the
command where its guard holds, or the command returns. -/
inductive Performs (m m' : Monitor Thread Condition Data Result) (t : Thread) : Prop where
  | stays (hdata : m'.data = m.data) (hstage : ∀ t', (m'.phase t').stage = (m.phase t').stage)
      (hphase : ∀ result, m'.phase t ≠ .outside result)
  | performs (command : Command Condition Data Result) (hinside : (m.phase t).inside = true)
      (hpending : (m.phase t).stage = .pending command) (hguard : command.guard m.data = true)
      (hdata : m'.data = (command.update m.data).2)
      (hdone : (m'.phase t).stage = .done (command.update m.data).1)
      (hothers : ∀ t', t' ≠ t → (m'.phase t').stage = (m.phase t').stage)
  | returns (result : Result) (hdone : (m.phase t).stage = .done result)
      (hdata : m'.data = m.data) (hphase : m'.phase t = .outside (some result))
      (hothers : ∀ t', t' ≠ t → (m'.phase t').stage = (m.phase t').stage)

/-! ### The steps -/

section Steps

variable [DecidableEq Thread]

/-- A thread moves to another phase. -/
def move (m : Monitor Thread Condition Data Result) (t : Thread)
    (p : Phase Condition Data Result) : Monitor Thread Condition Data Result :=
  { m with phase := Function.update m.phase t p }

/-- A thread begins a command. -/
def enter (m : Monitor Thread Condition Data Result) (t : Thread)
    (command : Command Condition Data Result) : Option (Monitor Thread Condition Data Result) :=
  match m.phase t with
  | .outside _ => some (m.move t (.locking command))
  | _ => none

/-- A sleeping thread is woken. -/
def wake (m : Monitor Thread Condition Data Result) (t : Thread) :
    Option (Monitor Thread Condition Data Result) :=
  match m.phase t with
  | .asleep command => some (m.move t (.locking command))
  | _ => none

@[simp]
theorem phase_move (t t' : Thread) (p : Phase Condition Data Result) :
  (m.move t p).phase t' = if t' = t then p else m.phase t'
  := Function.update_apply m.phase t p t'

@[simp]
theorem data_move (t : Thread) (p : Phase Condition Data Result) :
  (m.move t p).data = m.data
  := rfl

/-- Who is about to notify is as before, where a thread moves that is not. -/
theorem notified_move {owner : Option Thread} {data : Data} {p : Phase Condition Data Result}
    (hnot : ∀ command result, m.phase t ≠ .notifying command result) {condition : Condition}
    (h : m.Notified condition) :
  Notified { m.move t p with owner := owner, data := data } condition
  := by
  obtain ⟨t', command, result, hphase, hsame⟩ := h
  have hne : t' ≠ t := by
    rintro rfl
    apply hnot command result hphase
  use t', command, result
  simp only [phase_move, if_neg hne]
  use hphase

/-- A thread that does not notify moves without a change of the data, and sleeps only where its
guard does not hold. -/
theorem Inv.move (h : m.Inv Uses) {owner : Option Thread} {p : Phase Condition Data Result}
    (howner : ∀ t', owner = some t' ↔ ((m.move t p).phase t').inside = true)
    (huses : ∀ command, p.command = some command → Uses t command)
    (hguard : ∀ command, p = .updating command → command.guard m.data = true)
    (hasleep : ∀ command, p = .asleep command → command.guard m.data = false)
    (hnot : ∀ command result, m.phase t ≠ .notifying command result) :
  Inv Uses { m.move t p with owner := owner }
  := by
  constructor
  · apply howner
  · intro t' command hcommand
    simp only [phase_move] at hcommand
    split at hcommand
    case isTrue heq =>
      subst heq
      apply huses command hcommand
    case isFalse => apply h.uses t' command hcommand
  · intro t' command hphase
    simp only [phase_move] at hphase
    split at hphase
    case isTrue => apply hguard command hphase
    case isFalse => apply h.guard t' command hphase
  · intro t' command hphase
    simp only [phase_move] at hphase
    split at hphase
    case isTrue =>
      left
      apply hasleep command hphase
    case isFalse =>
      rcases h.awaited t' command hphase with hfalse | hnotified
      · left
        apply hfalse
      · right
        apply notified_move hnot hnotified

/-- A thread moves on one side of the mutex. -/
theorem Inv.owner_same (h : m.Inv Uses) {p : Phase Condition Data Result}
    (hinside : p.inside = (m.phase t).inside) (t' : Thread) :
  m.owner = some t' ↔ ((m.move t p).phase t').inside = true
  := by
  rw [phase_move, h.owner t']
  split
  case isTrue heq =>
    subst heq
    rw [hinside]
  case isFalse => rfl

/-- A thread takes the mutex. -/
theorem Inv.owner_lock (h : m.Inv Uses) {p : Phase Condition Data Result}
    (hfree : m.owner = none) (hinside : p.inside = true) (t' : Thread) :
  some t = some t' ↔ ((m.move t p).phase t').inside = true
  := by
  have howner := h.owner t'
  rw [hfree] at howner
  rw [phase_move]
  split
  case isTrue heq =>
    subst heq
    simp only [hinside]
  case isFalse hne =>
    rw [← howner]
    simp only [Option.some.injEq, reduceCtorEq, iff_false]
    apply Ne.symm hne

/-- A thread gives the mutex up. -/
theorem Inv.owner_release (h : m.Inv Uses) {p : Phase Condition Data Result}
    (howner : m.owner = some t) (hinside : p.inside = false) (t' : Thread) :
  none = some t' ↔ ((m.move t p).phase t').inside = true
  := by
  have howner' := h.owner t'
  rw [howner] at howner'
  rw [phase_move]
  split
  case isTrue => simp only [hinside, reduceCtorEq, Bool.false_eq_true]
  case isFalse hne =>
    rw [← howner']
    simp only [Option.some.injEq, reduceCtorEq, false_iff]
    apply Ne.symm hne

/-- A thread goes to the mutex. -/
theorem Inv.moveToLock (h : m.Inv Uses) {command : Command Condition Data Result}
    (huses : Uses t command) (houtside : (m.phase t).inside = false) :
  (m.move t (.locking command)).Inv Uses
  := by
  apply h.move
  · apply h.owner_same
    rw [houtside]
    rfl
  · intro command' hcommand
    obtain rfl := Option.some.inj hcommand
    apply huses
  · simp
  · simp
  · intro command' result hphase
    rw [hphase] at houtside
    cases houtside

theorem Inv.enter (h : m.Inv Uses) {command : Command Condition Data Result}
    (huses : Uses t command) (henter : m.enter t command = some m') :
  m'.Inv Uses
  := by
  rw [Monitor.enter] at henter
  split at henter
  case h_1 result hphase =>
    obtain rfl := Option.some.inj henter
    apply h.moveToLock huses
    rw [hphase]
    rfl
  case h_2 => cases henter

theorem Inv.wake (h : m.Inv Uses) (hwake : m.wake t = some m') :
  m'.Inv Uses
  := by
  rw [Monitor.wake] at hwake
  split at hwake
  case h_1 command hphase =>
    obtain rfl := Option.some.inj hwake
    apply h.moveToLock
    · apply h.uses t
      rw [hphase]
      rfl
    · rw [hphase]
      rfl
  case h_2 => cases hwake

/-- A command updates the data. -/
theorem Inv.update (h : m.Inv Uses) (hdiscipline : Discipline Uses)
    {command : Command Condition Data Result} (hphase : m.phase t = .updating command) :
  Inv Uses
    { m.move t (.notifying command (command.update m.data).1) with
      data := (command.update m.data).2 }
  := by
  have hinside : (m.phase t).inside = true := by
    rw [hphase]
    rfl
  have hnot : ∀ command result, m.phase t ≠ .notifying command result := by
    rw [hphase]
    simp
  have huses := h.uses t command (by rw [hphase]; rfl)
  constructor
  · apply h.owner_same
    rw [hinside]
    rfl
  · intro t' command' hcommand
    simp only [phase_move] at hcommand
    split at hcommand
    case isTrue heq =>
      subst heq
      obtain rfl := Option.some.inj hcommand
      apply huses
    case isFalse => apply h.uses t' command' hcommand
  · intro t' command' hphase'
    simp only [phase_move] at hphase'
    split at hphase'
    case isTrue => cases hphase'
    case isFalse hne =>
      cases hne (h.eq_of_inside (by rw [hphase']; rfl) hinside)
  · intro t' command' hphase'
    simp only [phase_move] at hphase'
    split at hphase'
    case isTrue => cases hphase'
    case isFalse hne =>
      have huses' := h.uses t' command' (by rw [hphase']; rfl)
      rcases h.awaited t' command' hphase' with hfalse | hnotified
      · cases hguard : command'.guard (command.update m.data).2 with
        | false =>
            left
            rfl
        | true =>
            right
            use t, command, (command.update m.data).1
            constructor
            · simp only [phase_move, if_true]
            · apply hdiscipline.notifies huses' huses hfalse hguard
      · cases h.not_notified hinside hnot _ hnotified

/-- A thread has notified its condition. -/
theorem Inv.notified (h : m.Inv Uses) {command : Command Condition Data Result} {result : Result}
    (hphase : m.phase t = .notifying command result)
    (hnone : ∀ t', ¬(m.phase t').SleepsOn command.notifies) :
  (m.move t (.leaving result)).Inv Uses
  := by
  have hinside : (m.phase t).inside = true := by
    rw [hphase]
    rfl
  constructor
  · apply h.owner_same
    rw [hinside]
    rfl
  · intro t' command' hcommand
    simp only [phase_move] at hcommand
    split at hcommand
    case isTrue => cases hcommand
    case isFalse => apply h.uses t' command' hcommand
  · intro t' command' hphase'
    simp only [phase_move] at hphase'
    split at hphase'
    case isTrue => cases hphase'
    case isFalse => apply h.guard t' command' hphase'
  · intro t' command' hphase'
    simp only [phase_move] at hphase'
    split at hphase'
    case isTrue => cases hphase'
    case isFalse =>
      rcases h.awaited t' command' hphase' with hfalse | ⟨t'', command'', result', hphase'', hsame⟩
      · left
        apply hfalse
      · obtain rfl : t = t'' := by
          apply h.eq_of_inside hinside
          rw [hphase'']
          rfl
        rw [hphase] at hphase''
        obtain ⟨rfl, -⟩ := Phase.notifying.inj hphase''
        cases hnone t' (Phase.sleepsOn_iff.mpr ⟨command', hphase', hsame.symm⟩)

/-- A thread that begins a command has it pending. -/
theorem stage_enter {command : Command Condition Data Result}
    (henter : m.enter t command = some m') :
  m'.data = m.data ∧ (m'.phase t).stage = .pending command
    ∧ ∀ t', t' ≠ t → (m'.phase t').stage = (m.phase t').stage
  := by
  rw [Monitor.enter] at henter
  split at henter
  case h_1 result hphase =>
    obtain rfl := Option.some.inj henter
    refine ⟨rfl, ?_, ?_⟩
    · rw [phase_move, if_pos rfl]
      rfl
    · intro t' hne
      rw [phase_move, if_neg hne]
  case h_2 => cases henter

theorem stage_wake (hwake : m.wake t = some m') :
  m'.data = m.data ∧ ∀ t', (m'.phase t').stage = (m.phase t').stage
  := by
  rw [Monitor.wake] at hwake
  split at hwake
  case h_1 command hphase =>
    obtain rfl := Option.some.inj hwake
    use rfl
    intro t'
    rw [phase_move]
    split
    case isTrue heq =>
      subst heq
      rw [hphase]
      rfl
    case isFalse => rfl
  case h_2 => cases hwake

/-- A step that moves a thread to a phase of the same stage. -/
theorem performs_move {owner : Option Thread} {p : Phase Condition Data Result}
    (hstage : p.stage = (m.phase t).stage) (hphase : ∀ result, p ≠ .outside result) :
  Performs m { m.move t p with owner := owner } t
  := by
  apply Performs.stays
  · rfl
  · intro t'
    simp only [phase_move]
    split
    case isTrue heq =>
      subst heq
      rw [hstage]
    case isFalse => rfl
  · intro result
    simp only [phase_move, if_true]
    apply hphase

end Steps

/-! ### The work left -/

section Work

variable [DecidableEq Thread] [Fintype Thread]

/-- The steps left in the commands of all threads. -/
def work (m : Monitor Thread Condition Data Result) : ℕ :=
  ∑ t, (m.phase t).rank

theorem work_move (t : Thread) (p : Phase Condition Data Result) :
  (m.move t p).work + (m.phase t).rank = m.work + p.rank
  := by
  have hsum := TransitionSystem.sum_change (f := fun t' => (m.phase t').rank)
    (g := fun t' => ((m.move t p).phase t').rank) (Finset.mem_univ t)
    fun t' hne => by rw [phase_move, if_neg hne]
  simp only [phase_move, if_true] at hsum
  simp only [work, phase_move]
  apply hsum

theorem work_enter {command : Command Condition Data Result}
    (henter : m.enter t command = some m') :
  m'.work = m.work + 7
  := by
  rw [Monitor.enter] at henter
  split at henter
  case h_1 result hphase =>
    obtain rfl := Option.some.inj henter
    have hmove := work_move (m := m) t (.locking command)
    rw [hphase] at hmove
    apply hmove
  case h_2 => cases henter

theorem work_wake (hwake : m.wake t = some m') :
  m'.work = m.work + 2
  := by
  rw [Monitor.wake] at hwake
  split at hwake
  case h_1 command hphase =>
    obtain rfl := Option.some.inj hwake
    have hmove := work_move (m := m) t (.locking command)
    rw [hphase] at hmove
    simp only [Phase.rank] at hmove
    omega
  case h_2 => cases hwake

end Work

/-! ### The next step of a command -/

section Resume

variable [DecidableEq Thread] [DecidableEq Condition] [Fintype Thread]

/-- One of the threads that sleep on a condition is woken, if there is one. -/
def notify (m : Monitor Thread Condition Data Result) (condition : Condition)
    (sleeper : Option Thread) : Option (Monitor Thread Condition Data Result) :=
  match sleeper with
  | some t => if (m.phase t).SleepsOn condition then m.wake t else none
  | none => if ∀ t, ¬(m.phase t).SleepsOn condition then some m else none

/-- The next step of a thread in its command. A notification wakes `sleeper`. -/
def resume (m : Monitor Thread Condition Data Result) (t : Thread) (sleeper : Option Thread) :
    Option (Monitor Thread Condition Data Result) :=
  match m.phase t with
  | .outside _ => none
  | .locking command =>
      match m.owner with
      | none => some { m.move t (.testing command) with owner := some t }
      | some _ => none
  | .testing command =>
      if command.guard m.data = true then some (m.move t (.updating command))
      else some { m.move t (.asleep command) with owner := none }
  | .asleep _ => none
  | .updating command =>
      some { m.move t (.notifying command (command.update m.data).1) with
        data := (command.update m.data).2 }
  | .notifying command result =>
      (m.notify command.notifies sleeper).map (·.move t (.leaving result))
  | .leaving result => some { m.move t (.outside (some result)) with owner := none }

/-- A notification leaves nobody asleep on its condition. -/
theorem Inv.notify (h : m.Inv Uses) (hdiscipline : Discipline Uses) {condition : Condition}
    {sleeper : Option Thread} (hnotify : m.notify condition sleeper = some m') :
  m'.Inv Uses ∧ ∀ t, ¬(m'.phase t).SleepsOn condition
  := by
  cases sleeper with
  | none =>
      simp only [Monitor.notify, Option.ite_none_right_eq_some, Option.some.injEq] at hnotify
      obtain ⟨hnone, rfl⟩ := hnotify
      use h
  | some t =>
      simp only [Monitor.notify, Option.ite_none_right_eq_some] at hnotify
      obtain ⟨hsleeps, hwake⟩ := hnotify
      use h.wake hwake
      obtain ⟨command, hphase, rfl⟩ := Phase.sleepsOn_iff.mp hsleeps
      have huses := h.uses t command (by rw [hphase]; rfl)
      rw [Monitor.wake, hphase] at hwake
      obtain rfl := Option.some.inj hwake
      intro t' hsleeps'
      obtain ⟨command', hphase', hsame⟩ := Phase.sleepsOn_iff.mp hsleeps'
      simp only [phase_move] at hphase'
      split at hphase'
      case isTrue => cases hphase'
      case isFalse hne =>
        have huses' := h.uses t' command' (by rw [hphase']; rfl)
        cases hne (hdiscipline.alone huses' huses hsame)

/-- A notification leaves the phase of a thread that does not sleep. -/
theorem phase_notify {condition : Condition} {sleeper : Option Thread}
    (hnotify : m.notify condition sleeper = some m')
    (hnot : ∀ command, m.phase t ≠ .asleep command) :
  m'.phase t = m.phase t ∧ m'.data = m.data
  := by
  cases sleeper with
  | none =>
      simp only [Monitor.notify, Option.ite_none_right_eq_some, Option.some.injEq] at hnotify
      obtain ⟨-, rfl⟩ := hnotify
      exact ⟨rfl, rfl⟩
  | some t' =>
      simp only [Monitor.notify, Option.ite_none_right_eq_some, Monitor.wake] at hnotify
      obtain ⟨-, hwake⟩ := hnotify
      split at hwake
      case h_1 command hphase =>
        obtain rfl := Option.some.inj hwake
        have hne : t ≠ t' := by
          rintro rfl
          apply hnot command hphase
        simp only [phase_move, if_neg hne, data_move, and_self]
      case h_2 => cases hwake

/-- The steps of the commands keep the invariant. -/
theorem Inv.resume (h : m.Inv Uses) (hdiscipline : Discipline Uses) {sleeper : Option Thread}
    (hresume : m.resume t sleeper = some m') :
  m'.Inv Uses
  := by
  rw [Monitor.resume] at hresume
  cases hphase : m.phase t with
  | outside result | asleep command =>
      rw [hphase] at hresume
      cases hresume
  | locking command =>
      rw [hphase] at hresume
      have huses := h.uses t command (by rw [hphase]; rfl)
      cases hfree : m.owner with
      | some t' =>
          rw [hfree] at hresume
          cases hresume
      | none =>
          rw [hfree] at hresume
          obtain rfl := Option.some.inj hresume
          apply h.move
          · apply h.owner_lock hfree rfl
          · intro command' hcommand
            obtain rfl := Option.some.inj hcommand
            apply huses
          · simp
          · simp
          · simp [hphase]
  | testing command =>
      rw [hphase] at hresume
      have huses := h.uses t command (by rw [hphase]; rfl)
      have howner := (h.owner t).mpr (by rw [hphase]; rfl)
      dsimp only at hresume
      split at hresume
      case isTrue hguard =>
        obtain rfl := Option.some.inj hresume
        apply h.move
        · apply h.owner_same
          rw [hphase]
          rfl
        · intro command' hcommand
          obtain rfl := Option.some.inj hcommand
          apply huses
        · intro command' hupdating
          obtain rfl := Phase.updating.inj hupdating
          apply hguard
        · simp
        · simp [hphase]
      case isFalse hguard =>
        obtain rfl := Option.some.inj hresume
        apply h.move
        · apply h.owner_release howner rfl
        · intro command' hcommand
          obtain rfl := Option.some.inj hcommand
          apply huses
        · simp
        · intro command' hasleep
          obtain rfl := Phase.asleep.inj hasleep
          apply Bool.eq_false_of_not_eq_true hguard
        · simp [hphase]
  | updating command =>
      rw [hphase] at hresume
      obtain rfl := Option.some.inj hresume
      apply h.update hdiscipline hphase
  | notifying command result =>
      rw [hphase] at hresume
      obtain ⟨m₁, hnotify, rfl⟩ := Option.map_eq_some_iff.mp hresume
      obtain ⟨h₁, hnone⟩ := h.notify hdiscipline hnotify
      have hphase₁ := (phase_notify (t := t) hnotify (by simp [hphase])).1
      apply h₁.notified (hphase₁.trans hphase) hnone
  | leaving result =>
      rw [hphase] at hresume
      have howner := (h.owner t).mpr (by rw [hphase]; rfl)
      obtain rfl := Option.some.inj hresume
      apply h.move
      · apply h.owner_release howner rfl
      · exact fun command hcommand => by cases hcommand
      · simp
      · simp
      · simp [hphase]

/-! ### Commands as if performed at once -/

theorem stage_notify {condition : Condition} {sleeper : Option Thread}
    (hnotify : m.notify condition sleeper = some m') :
  m'.data = m.data ∧ ∀ t', (m'.phase t').stage = (m.phase t').stage
  := by
  cases sleeper with
  | none =>
      simp only [Monitor.notify, Option.ite_none_right_eq_some, Option.some.injEq] at hnotify
      obtain ⟨-, rfl⟩ := hnotify
      use rfl
      intro t'
      rfl
  | some t =>
      simp only [Monitor.notify, Option.ite_none_right_eq_some] at hnotify
      apply stage_wake hnotify.2

/-- A command is performed as if at once, where its guard holds. -/
theorem Inv.performs (h : m.Inv Uses) {sleeper : Option Thread}
    (hresume : m.resume t sleeper = some m') :
  Performs m m' t
  := by
  have hothers {p : Phase Condition Data Result} (t' : Thread) (hne : t' ≠ t) :
      ((m.move t p).phase t').stage = (m.phase t').stage := by
    rw [phase_move, if_neg hne]
  rw [Monitor.resume] at hresume
  cases hphase : m.phase t with
  | outside result | asleep command =>
      rw [hphase] at hresume
      cases hresume
  | locking command =>
      rw [hphase] at hresume
      cases hfree : m.owner with
      | some t' =>
          rw [hfree] at hresume
          cases hresume
      | none =>
          rw [hfree] at hresume
          obtain rfl := Option.some.inj hresume
          apply performs_move
          · rw [hphase]
            rfl
          · simp
  | testing command =>
      rw [hphase] at hresume
      dsimp only at hresume
      split at hresume
      case isTrue =>
        obtain rfl := Option.some.inj hresume
        apply performs_move
        · rw [hphase]
          rfl
        · simp
      case isFalse =>
        obtain rfl := Option.some.inj hresume
        apply performs_move
        · rw [hphase]
          rfl
        · simp
  | updating command =>
      rw [hphase] at hresume
      obtain rfl := Option.some.inj hresume
      apply Performs.performs command
      · rw [hphase]
        rfl
      · rw [hphase]
        rfl
      · apply h.guard t command hphase
      · rfl
      · simp only [phase_move, if_true]
        rfl
      · apply hothers
  | notifying command result =>
      rw [hphase] at hresume
      obtain ⟨m₁, hnotify, rfl⟩ := Option.map_eq_some_iff.mp hresume
      obtain ⟨hdata, hstage⟩ := stage_notify hnotify
      apply Performs.stays
      · apply hdata
      · intro t'
        rw [phase_move]
        split
        case isTrue heq =>
          subst heq
          rw [hphase]
          rfl
        case isFalse => apply hstage
      · intro result'
        simp
  | leaving result =>
      rw [hphase] at hresume
      obtain rfl := Option.some.inj hresume
      apply Performs.returns result
      · rw [hphase]
        rfl
      · rfl
      · simp only [phase_move, if_true]
      · apply hothers

/-! ### Progress -/

/-- Where a thread is inside, it has a step. -/
theorem exists_resume_of_inside (hinside : (m.phase t).inside = true) :
  ∃ sleeper m', m.resume t sleeper = some m'
  := by
  simp only [Monitor.resume]
  cases hphase : m.phase t with
  | outside result | locking command | asleep command =>
      rw [hphase] at hinside
      cases hinside
  | testing command =>
      use none
      dsimp only
      split
      · simp only [Option.some.injEq, exists_eq']
      · simp only [Option.some.injEq, exists_eq']
  | updating command | leaving result =>
      use none
      simp only [Option.some.injEq, exists_eq']
  | notifying command result =>
      by_cases hnone : ∀ t', ¬(m.phase t').SleepsOn command.notifies
      · use none
        simp only [Monitor.notify, if_pos hnone, Option.map_some, Option.some.injEq, exists_eq']
      · simp only [not_forall, not_not] at hnone
        obtain ⟨t', hsleeps⟩ := hnone
        obtain ⟨command', hphase', -⟩ := Phase.sleepsOn_iff.mp hsleeps
        use some t'
        rw [hphase'] at hsleeps
        simp only [Monitor.notify, Monitor.wake, hphase', if_pos hsleeps, Option.map_some,
          Option.some.injEq, exists_eq']

/-- Where no thread has a step in its command, each one is outside, or sleeps on a guard that
does not hold. -/
theorem Inv.stuck (h : m.Inv Uses) (hstuck : ∀ t sleeper, m.resume t sleeper = none) (t : Thread) :
  (∃ result, m.phase t = .outside result)
    ∨ ∃ command, m.phase t = .asleep command ∧ command.guard m.data = false
  := by
  have hnone (t' : Thread) : (m.phase t').inside = false := by
    apply Bool.eq_false_of_not_eq_true
    intro hinside
    obtain ⟨sleeper, m', hresume⟩ := exists_resume_of_inside hinside
    rw [hstuck t' sleeper] at hresume
    cases hresume
  cases hphase : m.phase t with
  | outside result =>
      left
      use result
  | asleep command =>
      right
      use command, rfl
      rcases h.awaited t command hphase with hfalse | ⟨t', command', result, hphase', -⟩
      · apply hfalse
      · have hinside := hnone t'
        rw [hphase'] at hinside
        cases hinside
  | locking command =>
      have hfree : m.owner = none := by
        cases howner : m.owner with
        | none => rfl
        | some t' =>
            have hinside := (h.owner t').mp howner
            rw [hnone t'] at hinside
            cases hinside
      have hresume := hstuck t none
      simp only [Monitor.resume, hphase, hfree, reduceCtorEq] at hresume
  | testing command | updating command | notifying command result | leaving result =>
      have hinside := hnone t
      rw [hphase] at hinside
      cases hinside

theorem work_notify_le {condition : Condition} {sleeper : Option Thread}
    (hnotify : m.notify condition sleeper = some m') :
  m'.work ≤ m.work + 2
  := by
  cases sleeper with
  | none =>
      simp only [Monitor.notify, Option.ite_none_right_eq_some, Option.some.injEq] at hnotify
      obtain ⟨-, rfl⟩ := hnotify
      omega
  | some t' =>
      simp only [Monitor.notify, Option.ite_none_right_eq_some] at hnotify
      apply (work_wake hnotify.2).le

/-- The steps of the commands decrease the work. -/
theorem work_resume {sleeper : Option Thread} (hresume : m.resume t sleeper = some m') :
  m'.work < m.work
  := by
  rw [Monitor.resume] at hresume
  cases hphase : m.phase t with
  | outside result | asleep command =>
      rw [hphase] at hresume
      cases hresume
  | locking command =>
      rw [hphase] at hresume
      cases hfree : m.owner with
      | some t' =>
          rw [hfree] at hresume
          cases hresume
      | none =>
          rw [hfree] at hresume
          obtain rfl := Option.some.inj hresume
          have hmove := work_move (m := m) t (.testing command)
          rw [hphase] at hmove
          simp only [Phase.rank] at hmove
          change (m.move t (.testing command)).work < m.work
          omega
  | testing command =>
      rw [hphase] at hresume
      dsimp only at hresume
      split at hresume
      case isTrue =>
        obtain rfl := Option.some.inj hresume
        have hmove := work_move (m := m) t (.updating command)
        rw [hphase] at hmove
        simp only [Phase.rank] at hmove
        omega
      case isFalse =>
        obtain rfl := Option.some.inj hresume
        have hmove := work_move (m := m) t (.asleep command)
        rw [hphase] at hmove
        simp only [Phase.rank] at hmove
        change (m.move t (.asleep command)).work < m.work
        omega
  | updating command =>
      rw [hphase] at hresume
      obtain rfl := Option.some.inj hresume
      have hmove := work_move (m := m) t (.notifying command (command.update m.data).1)
      rw [hphase] at hmove
      simp only [Phase.rank] at hmove
      change (m.move t (.notifying command (command.update m.data).1)).work < m.work
      omega
  | notifying command result =>
      rw [hphase] at hresume
      obtain ⟨m₁, hnotify, rfl⟩ := Option.map_eq_some_iff.mp hresume
      have hle := work_notify_le hnotify
      have hphase₁ := (phase_notify (t := t) hnotify (by simp [hphase])).1
      have hmove := work_move (m := m₁) t (.leaving result)
      rw [hphase₁, hphase] at hmove
      simp only [Phase.rank] at hmove
      omega
  | leaving result =>
      rw [hphase] at hresume
      obtain rfl := Option.some.inj hresume
      have hmove := work_move (m := m) t (.outside (some result))
      rw [hphase] at hmove
      simp only [Phase.rank] at hmove
      change (m.move t (.outside (some result))).work < m.work
      omega

end Resume

end Monitor
