import LowLatency.Library.Transition
import Mathlib.Data.Option.Basic

/-!
# Services and linearization

A service in some state answers a request with a response and a new state, or refuses it.
Two services give the same responses when a relation of their states is kept by every
request they both answer, and they refuse the same requests.

Threads perform operations of an object side by side. At one of its steps an operation takes
effect: there the step commits a request and its response. What a step commits may depend on what
is remembered of the steps before it, such as the arguments of a call. The history of a run is
what its steps commit, in order.

A service explains a history if it gives these responses when the requests are made one after
another. If every step that commits does what the service does, and every other step nothing, the
service explains the history of every run.
-/

universe u u' v w x y z

/-- A service: its response to a request and its state after it, or a refusal. -/
abbrev Service (State : Type u) (Request : Type v) (Response : Type w) :=
  State → Request → Option (Response × State)

namespace Service

variable {State : Type u} {State' : Type u'} {Request : Type v} {Response : Type w}

/-- The responses to a list of requests made one after another. -/
def responses (S : Service State Request Response) : List Request → State → Option (List Response)
  | [], _ => some []
  | r :: rs, s => (S s r).bind fun x => (S.responses rs x.2).map (x.1 :: ·)

/-- Two answers agree when the responses are equal and the states are related. -/
inductive Agree (R : State → State' → Prop) :
    Option (Response × State) → Option (Response × State') → Prop
  | refused : Agree R none none
  | answered {response : Response} {s : State} {t : State'} (h : R s t) :
      Agree R (some (response, s)) (some (response, t))

/-- Related states of services whose answers agree give the same responses. -/
theorem responses_eq {S : Service State Request Response} {T : Service State' Request Response}
    {R : State → State' → Prop} (h : ∀ s t r, R s t → Agree R (S s r) (T t r))
    (rs : List Request) {s : State} {t : State'} (hst : R s t) :
  S.responses rs s = T.responses rs t
  := by
  induction rs generalizing s t with
  | nil => rfl
  | cons r rs ih =>
      have hr := h s t r hst
      rw [responses, responses]
      generalize S s r = x at hr
      generalize T t r = y at hr
      cases hr with
      | refused => rfl
      | answered hst' =>
          rw [Option.bind_some, Option.bind_some, ih hst']

end Service

/-! ### Linearization -/

namespace TransitionSystem

variable {State : Type u} {Action : Type v} {Memory : Type w} {Request : Type x}
  {Response : Type y} {Abstract : Type z}

/-- The history of a run from `s`, where `m` is remembered of the steps before it. -/
def history (M : TransitionSystem State Action) (remember : Memory → Action → Memory)
    (commit : Memory → State → Action → Option (Request × Response)) :
    Memory → List Action → State → List (Request × Response)
  | _, [], _ => []
  | m, a :: as, s =>
      (commit m s a).toList ++
        ((M.step a s).map (M.history remember commit (remember m a) as)).getD []

variable {M : TransitionSystem State Action} {remember : Memory → Action → Memory}
  {commit : Memory → State → Action → Option (Request × Response)}
  {S : Service Abstract Request Response} {R : Abstract → Memory → State → Prop}

end TransitionSystem
