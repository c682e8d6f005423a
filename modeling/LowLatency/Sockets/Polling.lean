import LowLatency.Sockets.Loop
import Mathlib.Data.List.Infix

/-!
# Polling loops

A polling loop calls the kernel again and again and consults a stop predicate when the kernel
has nothing for it. The loop is run with a log of its calls and consultations, and the
predicate is any sequence of answers, one for each consultation.
-/

namespace Sockets

/-- What a polling loop does: it calls the kernel, or it consults the stop predicate. -/
inductive Event (Outcome : Type) where
  | call (outcome : Outcome)
  | consult (stopRequested : Bool)

/-- The answer of the kernel in an event. -/
def Event.outcome? {Outcome : Type} : Event Outcome → Option Outcome
  | .call outcome => some outcome
  | .consult _ => none

/-- The answer of the stop predicate in an event. -/
def Event.answer? {Outcome : Type} : Event Outcome → Option Bool
  | .call _ => none
  | .consult stopRequested => some stopRequested

/-- The predicate is consulted once after each answer of the kernel that is `idle`, and never
otherwise. -/
inductive Polled {Outcome : Type} (idle : Outcome → Bool) : List (Event Outcome) → Prop where
  | nil : Polled idle []
  | busy {events : List (Event Outcome)} {outcome : Outcome} (h : Polled idle events)
      (houtcome : idle outcome = false) : Polled idle (events ++ [.call outcome])
  | idle {events : List (Event Outcome)} {outcome : Outcome} {stopRequested : Bool}
      (h : Polled idle events) (houtcome : idle outcome = true) :
      Polled idle (events ++ [.call outcome] ++ [.consult stopRequested])

/-- The local variables of a polling loop and its log. -/
structure Polling (Local Outcome : Type) where
  locals : Local
  events : List (Event Outcome)

variable {Local Outcome Result : Type}

namespace Polling

/-- A loop that is beginning. -/
def start (l : Local) : Polling Local Outcome where
  locals := l
  events := []

/-- The answers of the kernel. -/
def calls (p : Polling Local Outcome) : List Outcome :=
  p.events.filterMap Event.outcome?

/-- The answers of the stop predicate. -/
def answers (p : Polling Local Outcome) : List Bool :=
  p.events.filterMap Event.answer?

/-- The loop after the kernel has answered. -/
def called (p : Polling Local Outcome) (outcome : Outcome) : Polling Local Outcome :=
  { p with events := p.events ++ [.call outcome] }

/-- The next answer of the stop predicate, and the loop after it. -/
def consult (p : Polling Local Outcome) (stopRequested : ℕ → Bool) :
    Bool × Polling Local Outcome :=
  let answer := stopRequested p.answers.length
  (answer, { p with events := p.events ++ [.consult answer] })

/-- A turn of the loop that does `t` to the local variables. -/
def turn (p : Polling Local Outcome) (t : Turn Local Result) :
    Turn (Polling Local Outcome) Result :=
  t.map (fun l => { p with locals := l }) id

section Log

variable (p : Polling Local Outcome) (outcome : Outcome) (stopRequested : ℕ → Bool)
  (t : Turn Local Result)

@[simp]
theorem calls_called : (p.called outcome).calls = p.calls ++ [outcome] := by
  simp [calls, called, Event.outcome?]

@[simp]
theorem answers_called : (p.called outcome).answers = p.answers := by
  simp [answers, called, Event.answer?]

@[simp]
theorem consult_fst : (p.consult stopRequested).1 = stopRequested p.answers.length := rfl

@[simp]
theorem calls_consult : (p.consult stopRequested).2.calls = p.calls := by
  simp [calls, consult, Event.outcome?]

@[simp]
theorem answers_consult :
  (p.consult stopRequested).2.answers = p.answers ++ [stopRequested p.answers.length]
  := by
  simp [answers, consult, Event.answer?]

@[simp]
theorem locals_called : (p.called outcome).locals = p.locals := rfl

@[simp]
theorem events_turn : (p.turn t).locals.events = p.events := by
  cases t <;> rfl

@[simp]
theorem calls_turn : (p.turn t).locals.calls = p.calls := by
  rw [calls, events_turn, calls]

@[simp]
theorem answers_turn : (p.turn t).locals.answers = p.answers := by
  rw [answers, events_turn, answers]

@[simp]
theorem map_turn : (p.turn t).map locals id = t := by
  cases t <;> rfl

end Log

end Polling

/-! ### Loops that poll -/

/-- The loop `turn` polls: its predicate is consulted when the kernel is `idle`, and it returns
a result that is `stopped` when the predicate then asks for it. -/
structure Polls (stopRequested : ℕ → Bool) (idle : Outcome → Bool) (stopped : Result → Prop)
    (turn : Polling Local Outcome → Outcome → Turn (Polling Local Outcome) Result) : Prop where
  busy : ∀ p outcome, idle outcome = false → ∃ t, turn p outcome = (p.called outcome).turn t
    ∧ ∀ l result, t = .done l result → ¬ stopped result
  again : ∀ p outcome, idle outcome = true → stopRequested p.answers.length = false → ∃ t,
    turn p outcome = ((p.called outcome).consult stopRequested).2.turn t
      ∧ ∀ l result, t = .done l result → ¬ stopped result
  stop : ∀ p outcome, idle outcome = true → stopRequested p.answers.length = true →
    ∃ l result, turn p outcome = ((p.called outcome).consult stopRequested).2.turn (.done l result)
      ∧ stopped result

/-- What holds of a polling loop after any turn. -/
structure Cooperative (stopRequested : ℕ → Bool) (idle : Outcome → Bool)
    (stopped : Result → Prop) (t : Turn (Polling Local Outcome) Result) : Prop where
  polled : Polled idle t.locals.events
  answers : t.locals.answers = (List.range t.locals.answers.length).map stopRequested
  again : ∀ p, t = .again p → ∀ answer ∈ p.answers, answer = false
  done : ∀ p result, t = .done p result → ∀ answer ∈ p.answers.dropLast, answer = false
  stopped : ∀ p result, t = .done p result → (stopped result ↔ p.answers.getLast? = some true)

section Loops

variable {stopRequested : ℕ → Bool} {idle : Outcome → Bool} {stopped : Result → Prop}
  {loop : Polling Local Outcome → Outcome → Turn (Polling Local Outcome) Result}
  {t : Turn (Polling Local Outcome) Result} {trace : List Outcome}

/-- One answer of the predicate for each idle answer of the kernel. -/
theorem Polled.length_answers {p : Polling Local Outcome} (h : Polled idle p.events) :
  p.answers.length = (p.calls.filter idle).length
  := by
  rw [Polling.answers, Polling.calls]
  generalize p.events = events at h
  induction h with
  | nil => rfl
  | busy h houtcome ih => simp [Event.answer?, Event.outcome?, houtcome, ih]
  | idle h houtcome ih =>
      simp [Event.answer?, Event.outcome?, houtcome, ih, List.filterMap_cons]

theorem cooperative_start (l : Local) (t : Turn Local Result)
    (ht : ∀ l result, t = .done l result → ¬ stopped result) :
  Cooperative stopRequested idle stopped ((Polling.start l : Polling Local Outcome).turn t)
  := by
  cases t with
  | again l' =>
      constructor
      · apply Polled.nil
      · rfl
      · intro p hp answer hanswer
        obtain rfl := Turn.again.inj hp
        cases hanswer
      · intro p result hp
        cases hp
      · intro p result hp
        cases hp
  | done l' result' =>
      constructor
      · apply Polled.nil
      · rfl
      · intro p hp
        cases hp
      · intro p result hp answer hanswer
        obtain ⟨rfl, -⟩ := Turn.done.inj hp
        cases hanswer
      · intro p result hp
        obtain ⟨rfl, rfl⟩ := Turn.done.inj hp
        constructor
        · intro hstopped
          cases ht l' result' rfl hstopped
        · intro hlast
          cases hlast

/-- The answers so far are those of the predicate, the next one included. -/
theorem answers_append {answers : List Bool}
    (h : answers = (List.range answers.length).map stopRequested) :
  answers ++ [stopRequested answers.length]
    = (List.range (answers ++ [stopRequested answers.length]).length).map stopRequested
  := by
  rw [List.length_append, List.length_singleton, List.range_succ, List.map_append, ← h]
  rfl

/-- A turn of a polling loop. -/
theorem Cooperative.step (hturn : Polls stopRequested idle stopped loop)
    {p : Polling Local Outcome} {outcome : Outcome}
    (h : Cooperative stopRequested idle stopped (.again p)) :
  Cooperative stopRequested idle stopped (loop p outcome)
  := by
  have hfalse := h.again p rfl
  cases houtcome : idle outcome with
  | false =>
      obtain ⟨t, ht, hstopped⟩ := hturn.busy p outcome houtcome
      have hanswers : (loop p outcome).locals.answers = p.answers := by simp [ht]
      constructor
      · rw [ht, Polling.events_turn]
        apply h.polled.busy houtcome
      · rw [hanswers]
        apply h.answers
      · intro p' hp' answer
        rw [hp', Turn.locals] at hanswers
        rw [hanswers]
        apply hfalse
      · intro p' result hp' answer hanswer
        rw [hp', Turn.locals] at hanswers
        rw [hanswers] at hanswer
        apply hfalse _ (List.mem_of_mem_dropLast hanswer)
      · intro p' result hp'
        rw [hp', Turn.locals] at hanswers
        rw [hanswers]
        rw [ht] at hp'
        cases t with
        | again l => cases hp'
        | done l result' =>
            obtain ⟨-, rfl⟩ := Turn.done.inj hp'
            constructor
            · intro hresult
              cases hstopped l _ rfl hresult
            · intro hlast
              cases hfalse true (List.mem_of_getLast? hlast)
  | true =>
      have hpolled : ∀ t : Turn Local Result,
          Polled idle (((p.called outcome).consult stopRequested).2.turn t).locals.events := by
        intro t
        rw [Polling.events_turn]
        apply h.polled.idle houtcome
      cases hanswer : stopRequested p.answers.length with
      | false =>
          obtain ⟨t, ht, hstopped⟩ := hturn.again p outcome houtcome hanswer
          have hanswers : (loop p outcome).locals.answers = p.answers ++ [false] := by
            simp [ht, hanswer]
          have hfalse' : ∀ answer ∈ p.answers ++ [false], answer = false := by
            intro answer hmem
            rw [List.mem_append, List.mem_singleton] at hmem
            rcases hmem with hmem | hmem
            · apply hfalse answer hmem
            · apply hmem
          constructor
          · rw [ht]
            apply hpolled
          · rw [hanswers, ← hanswer]
            apply answers_append h.answers
          · intro p' hp'
            rw [hp', Turn.locals] at hanswers
            rw [hanswers]
            apply hfalse'
          · intro p' result hp' answer hmem
            rw [hp', Turn.locals] at hanswers
            rw [hanswers] at hmem
            apply hfalse' _ (List.mem_of_mem_dropLast hmem)
          · intro p' result hp'
            rw [hp', Turn.locals] at hanswers
            rw [hanswers]
            rw [ht] at hp'
            cases t with
            | again l => cases hp'
            | done l result' =>
                obtain ⟨-, rfl⟩ := Turn.done.inj hp'
                simp [hstopped l _ rfl]
      | true =>
          obtain ⟨l, result, ht, hstopped⟩ := hturn.stop p outcome houtcome hanswer
          have hanswers : (loop p outcome).locals.answers = p.answers ++ [true] := by
            simp [ht, hanswer]
          constructor
          · rw [ht]
            apply hpolled
          · rw [hanswers, ← hanswer]
            apply answers_append h.answers
          · intro p' hp'
            rw [ht] at hp'
            cases hp'
          · intro p' result' hp' answer hmem
            rw [hp', Turn.locals] at hanswers
            rw [hanswers, List.dropLast_concat] at hmem
            apply hfalse answer hmem
          · intro p' result' hp'
            rw [hp', Turn.locals] at hanswers
            rw [hanswers]
            rw [ht] at hp'
            obtain ⟨-, rfl⟩ := Turn.done.inj hp'
            simp [hstopped]

theorem Cooperative.run (hturn : Polls stopRequested idle stopped loop)
    (h : Cooperative stopRequested idle stopped t) :
  Cooperative stopRequested idle stopped (Turn.run loop t trace).1
  := by
  apply Turn.run_invariant (P := fun t _ => Cooperative stopRequested idle stopped t) h
  intro p outcome _ hp
  apply hp.step hturn

/-- The answers in a log are those of the predicate. -/
theorem Cooperative.getElem?_answers (h : Cooperative stopRequested idle stopped t) {i : ℕ}
    (hi : i < t.locals.answers.length) :
  t.locals.answers[i]? = some (stopRequested i)
  := by
  rw [h.answers, List.getElem?_map, List.getElem?_range hi]
  rfl

/-- A predicate that answers `true` the `N`-th time is not consulted more often. -/
theorem Cooperative.length_answers (h : Cooperative stopRequested idle stopped t) {N : ℕ}
    (hN : 1 ≤ N) (hstop : stopRequested (N - 1) = true) :
  t.locals.answers.length ≤ N
  := by
  by_contra hlt
  have hmem : true ∈ t.locals.answers.dropLast := by
    apply List.mem_of_getElem? (i := N - 1)
    rw [List.getElem?_dropLast, if_pos (by omega), h.getElem?_answers (by omega), hstop]
  cases t with
  | again p => cases h.again p rfl true (List.mem_of_mem_dropLast hmem)
  | done p result => cases h.done p result rfl true hmem

/-- It is consulted less often as long as the loop goes on. -/
theorem Cooperative.length_answers_again {p : Polling Local Outcome}
    (h : Cooperative stopRequested idle stopped (.again p)) {N : ℕ} (hN : 1 ≤ N)
    (hstop : stopRequested (N - 1) = true) :
  p.answers.length < N
  := by
  by_contra hlt
  have hget : p.answers[N - 1]? = some (stopRequested (N - 1)) := by
    apply h.getElem?_answers
    rw [Turn.locals]
    omega
  rw [hstop] at hget
  cases h.again p rfl true (List.mem_of_getElem? hget)

/-- It is consulted less often by a loop that returns without a stop. -/
theorem Cooperative.length_answers_done {p : Polling Local Outcome} {result : Result}
    (h : Cooperative stopRequested idle stopped (.done p result)) (hresult : ¬ stopped result)
    {N : ℕ} (hN : 1 ≤ N) (hstop : stopRequested (N - 1) = true) :
  p.answers.length < N
  := by
  have hle : p.answers.length ≤ N := h.length_answers hN hstop
  by_contra hlt
  have hget : p.answers[N - 1]? = some (stopRequested (N - 1)) := by
    apply h.getElem?_answers
    rw [Turn.locals]
    omega
  apply hresult
  rw [h.stopped p result rfl, List.getLast?_eq_getElem?, ← hstop, ← hget]
  congr 2
  omega

/-- The calls are the part of the trace that is taken. -/
theorem Polls.calls_run (hturn : Polls stopRequested idle stopped loop)
    (ht : t.locals.calls = []) :
  (Turn.run loop t trace).1.locals.calls ++ (Turn.run loop t trace).2 = trace
  := by
  apply Turn.run_invariant
    (P := fun (t : Turn (Polling Local Outcome) Result) rest => t.locals.calls ++ rest = trace)
  · rw [ht]
    rfl
  · intro p outcome rest hp
    have hcalls : (loop p outcome).locals.calls = p.calls ++ [outcome] := by
      cases houtcome : idle outcome with
      | false =>
          obtain ⟨t, ht, -⟩ := hturn.busy p outcome houtcome
          simp [ht]
      | true =>
          cases hanswer : stopRequested p.answers.length with
          | false =>
              obtain ⟨t, ht, -⟩ := hturn.again p outcome houtcome hanswer
              simp [ht]
          | true =>
              obtain ⟨l, result, ht, -⟩ := hturn.stop p outcome houtcome hanswer
              simp [ht]
    rw [hcalls, List.append_assoc, List.singleton_append]
    apply hp

end Loops

end Sockets
