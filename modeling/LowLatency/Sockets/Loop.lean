import LowLatency.Sockets.Stream

/-!
# Loops over a trace

A loop is run over a trace of inputs, one for each turn, until it returns or the trace ends.
What is left is the last turn and the inputs that were not taken.
-/

namespace Sockets

namespace Turn

variable {Local Local' Result Result' Input : Type}

/-- The local variables after a turn. -/
def locals : Turn Local Result → Local
  | .again l => l
  | .done l _ => l

/-- A turn seen through a function of the local variables and one of the result. -/
def map (f : Local → Local') (g : Result → Result') : Turn Local Result → Turn Local' Result'
  | .again l => .again (f l)
  | .done l result => .done (f l) (g result)

/-- The loop over a trace from a turn on. -/
def run (turn : Local → Input → Turn Local Result) :
    Turn Local Result → List Input → Turn Local Result × List Input
  | .again l, input :: rest => run turn (turn l input) rest
  | .again l, [] => (.again l, [])
  | .done l result, trace => (.done l result, trace)

/-- The inputs of a trace that the loop takes. -/
def taken (turn : Local → Input → Turn Local Result) : Turn Local Result → List Input → List Input
  | .again l, input :: rest => input :: taken turn (turn l input) rest
  | .again _, [] => []
  | .done _ _, _ => []

/-- Every input the loop takes fits the local variables when it is taken. -/
def Along (turn : Local → Input → Turn Local Result) (fits : Local → Input → Prop) :
    Turn Local Result → List Input → Prop
  | .again l, input :: rest => fits l input ∧ Along turn fits (turn l input) rest
  | _, _ => True

section Run

variable {turn : Local → Input → Turn Local Result} {t : Turn Local Result} {l : Local}
  {input : Input} {trace rest : List Input} {fits : Local → Input → Prop}

@[simp]
theorem run_done {result : Result} : run turn (.done l result) trace = (.done l result, trace) := by
  rw [run]

@[simp]
theorem run_nil : run turn t [] = (t, []) := by
  cases t <;> rw [run]

@[simp]
theorem run_again_cons : run turn (.again l) (input :: rest) = run turn (turn l input) rest := by
  rw [run]

@[simp]
theorem taken_done {result : Result} : taken turn (.done l result) trace = [] := by
  rw [taken]

@[simp]
theorem taken_nil : taken turn t [] = [] := by
  cases t <;> rw [taken]

@[simp]
theorem taken_again_cons :
  taken turn (.again l) (input :: rest) = input :: taken turn (turn l input) rest
  := by
  rw [taken]

/-- What every turn keeps, whatever is left of the trace, the loop keeps. -/
theorem run_invariant {P : Turn Local Result → List Input → Prop} (h : P t trace)
    (hturn : ∀ l input rest, P (.again l) (input :: rest) → P (turn l input) rest) :
  P (run turn t trace).1 (run turn t trace).2
  := by
  induction trace generalizing t with
  | nil =>
      rw [run_nil]
      apply h
  | cons input rest ih =>
      cases t with
      | again l =>
          rw [run_again_cons]
          apply ih
          apply hturn l input rest h
      | done l result =>
          rw [run_done]
          apply h

/-- What every turn on an input that fits keeps, the loop keeps. -/
theorem run_invariant_along {P : Turn Local Result → Prop} (hfits : Along turn fits t trace)
    (h : P t) (hturn : ∀ l input, P (.again l) → fits l input → P (turn l input)) :
  P (run turn t trace).1
  := by
  have hboth : P (run turn t trace).1
      ∧ Along turn fits (run turn t trace).1 (run turn t trace).2 := by
    apply run_invariant (P := fun t rest => P t ∧ Along turn fits t rest)
    · constructor
      · apply h
      · apply hfits
    · rintro l input rest ⟨hP, hfit, hrest⟩
      constructor
      · apply hturn l input hP hfit
      · apply hrest
  apply hboth.1

/-- What every turn keeps of the inputs taken so far, the loop keeps of all it takes. -/
theorem run_invariant_taken {P : List Input → Turn Local Result → Prop}
    (hfits : Along turn fits t trace) {before : List Input} (h : P before t)
    (hturn : ∀ taken l input, taken ++ [input] <+: before ++ trace → P taken (.again l) →
      fits l input → P (taken ++ [input]) (turn l input)) :
  P (before ++ taken turn t trace) (run turn t trace).1
  := by
  induction trace generalizing t before with
  | nil =>
      rw [taken_nil, List.append_nil, run_nil]
      apply h
  | cons input rest ih =>
      cases t with
      | done l result =>
          rw [taken_done, List.append_nil, run_done]
          apply h
      | again l =>
          obtain ⟨hfit, hrest⟩ := hfits
          have hassoc : before ++ input :: rest = (before ++ [input]) ++ rest := by
            rw [List.append_assoc, List.singleton_append]
          rw [taken_again_cons, run_again_cons, List.append_cons]
          apply ih hrest
          · apply hturn before l input _ h hfit
            rw [hassoc]
            apply List.prefix_append
          · intro taken l' input' hprefix
            apply hturn taken l' input'
            rw [hassoc]
            apply hprefix

/-- A loop over two traces, one after the other. -/
theorem run_append (trace rest : List Input) :
  run turn t (trace ++ rest) = run turn (run turn t trace).1 ((run turn t trace).2 ++ rest)
  := by
  induction trace generalizing t with
  | nil => rw [run_nil, List.nil_append]
  | cons input trace ih =>
      cases t with
      | again l =>
          rw [List.cons_append, run_again_cons, run_again_cons]
          apply ih
      | done l result => rw [run_done, run_done, run_done]

/-- A loop that has not returned has taken the whole trace. -/
theorem run_again_snd (h : run turn t trace = (.again l, rest)) :
  rest = []
  := by
  induction trace generalizing t with
  | nil =>
      rw [run_nil] at h
      apply (Prod.mk.inj h).2.symm
  | cons input trace ih =>
      cases t with
      | again l' =>
          rw [run_again_cons] at h
          apply ih h
      | done l' result =>
          rw [run_done] at h
          cases h

/-- A loop that has not returned goes on. -/
theorem run_append_of_again {more : List Input} (h : run turn t trace = (.again l, rest)) :
  run turn t (trace ++ more) = run turn (.again l) more
  := by
  rw [run_append, h, run_again_snd h, List.nil_append]

/-- The turn in which a loop returns. -/
theorem exists_of_run_done {l' : Local} {result : Result}
    (h : run turn (.again l) trace = (.done l' result, rest)) :
  ∃ before input l₀, trace = before ++ input :: rest
    ∧ run turn (.again l) before = (.again l₀, []) ∧ turn l₀ input = .done l' result
  := by
  induction trace generalizing l with
  | nil =>
      rw [run_nil] at h
      cases h
  | cons input trace ih =>
      rw [run_again_cons] at h
      cases hturn : turn l input with
      | done l₁ result₁ =>
          rw [hturn, run_done] at h
          obtain ⟨⟨rfl, rfl⟩, rfl⟩ := h
          use [], input, l
          rw [run_nil]
          exact ⟨rfl, rfl, hturn⟩
      | again l₁ =>
          rw [hturn] at h
          obtain ⟨before, input', l₀, rfl, hbefore, hdone⟩ := ih h
          use input :: before, input', l₀
          rw [run_again_cons, hturn]
          exact ⟨rfl, hbefore, hdone⟩

/-- Without a condition everything fits. -/
theorem along_true : Along turn (fun _ _ => True) t trace := by
  induction trace generalizing t with
  | nil => cases t <;> trivial
  | cons input rest ih =>
      cases t with
      | again l =>
          use trivial
          apply ih
      | done l result => trivial

/-- Loops whose turns correspond run in step. -/
theorem run_map {turn' : Local' → Input → Turn Local' Result'} {f : Local → Local'}
    {g : Result → Result'} (hturn : ∀ l input, turn' (f l) input = (turn l input).map f g)
    (trace : List Input) :
  run turn' (t.map f g) trace = ((run turn t trace).1.map f g, (run turn t trace).2)
  := by
  induction trace generalizing t with
  | nil => rw [run_nil, run_nil]
  | cons input trace ih =>
      cases t with
      | again l =>
          rw [map, run_again_cons, run_again_cons, hturn]
          apply ih
      | done l result => rw [map, run_done, run_done, map]

/-- Inputs on which the loop stays as it is may be removed from its trace. -/
theorem run_filter {turn' : Local → Input → Turn Local Result} {P : Local → Prop}
    {keep : Input → Bool} (h : ∀ l, t = .again l → P l)
    (hP : ∀ l input l', P l → turn l input = .again l' → P l')
    (hkeep : ∀ l input, P l → keep input = true → turn' l input = turn l input)
    (hskip : ∀ l input, P l → keep input = false → turn l input = .again l)
    (trace : List Input) :
  run turn' t (trace.filter keep) = ((run turn t trace).1, (run turn t trace).2.filter keep)
  := by
  induction trace generalizing t with
  | nil => rw [List.filter_nil, run_nil, run_nil, List.filter_nil]
  | cons input trace ih =>
      cases t with
      | done l result => rw [run_done, run_done]
      | again l =>
          have hl : P l := h l rfl
          rw [run_again_cons]
          cases hinput : keep input with
          | true =>
              rw [List.filter_cons_of_pos hinput, run_again_cons, hkeep l input hl hinput]
              apply ih
              intro l' hl'
              apply hP l input l' hl hl'
          | false =>
              rw [List.filter_cons_of_neg (by simp [hinput]), hskip l input hl hinput]
              apply ih
              intro l' hl'
              obtain rfl := again.inj hl'
              apply hl

end Run

end Turn

end Sockets
