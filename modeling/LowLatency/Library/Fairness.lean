import LowLatency.Library.Transition

/-!
# Fairness

The actions of a transition system belong to threads. A thread is treated fairly by an endless
run if it is never left with a step to take from some step on.

Some systems cannot go on forever only because their threads are treated fairly: while a thread
waits for another one its steps achieve nothing, and the other one has to step. To show that such
a system comes to an end it is enough to name at every state a thread which helps: it has a step,
its steps decrease a measure, and the other threads leave the measure and the thread that helps
as they are, or else decrease the measure themselves.
-/

universe u v w

namespace TransitionSystem

variable {State : Type u} {Action : Type v} {Thread : Type w} (M : TransitionSystem State Action)
  (thread : Action → Thread)

/-- A thread has a step. -/
def Able (t : Thread) (s : State) : Prop :=
  ∃ a s', thread a = t ∧ M.step a s = some s'

/-- An endless run treats a thread fairly: again and again the thread takes a step, or has
none. -/
def Fair (states : ℕ → State) (actions : ℕ → Action) (t : Thread) : Prop :=
  ∀ n, ∃ k, n ≤ k ∧ (thread (actions k) = t ∨ ¬M.Able thread t (states k))

/-- The step decreases the measure, or another thread than the one that helps has taken it and
has changed neither. -/
def Helps (measure : State → ℕ) (helpful : State → Thread) (s : State) (a : Action) (s' : State) :
    Prop :=
  measure s' < measure s
    ∨ measure s' = measure s ∧ helpful s' = helpful s ∧ thread a ≠ helpful s

variable {M thread} {measure : State → ℕ} {helpful : State → Thread} {states : ℕ → State}
  {actions : ℕ → Action}

/-- Up to any later step, the measure decreases or the same thread helps. -/
theorem helpful_stays {n : ℕ}
    (hstep : ∀ k, n ≤ k → Helps thread measure helpful (states k) (actions k) (states (k + 1)))
    (j : ℕ) :
  (∃ k, n ≤ k ∧ measure (states k) < measure (states n))
    ∨ measure (states (n + j)) = measure (states n)
      ∧ helpful (states (n + j)) = helpful (states n)
  := by
  induction j with
  | zero =>
      right
      exact ⟨rfl, rfl⟩
  | succ j ih =>
      rcases ih with hless | ⟨hmeasure, hhelpful⟩
      · left
        apply hless
      · rcases hstep (n + j) (Nat.le_add_right n j) with hlt | ⟨hmeasure', hhelpful', -⟩
        · left
          use n + j + 1, by omega
          omega
        · right
          rw [← Nat.add_assoc, hmeasure', hhelpful']
          use hmeasure

/-- No endless run treats all threads fairly in which from some step on a thread helps. -/
theorem not_fair {first : ℕ}
    (hstep : ∀ n, first ≤ n →
      Helps thread measure helpful (states n) (actions n) (states (n + 1)))
    (hable : ∀ n, first ≤ n → M.Able thread (helpful (states n)) (states n)) :
  ¬∀ t, M.Fair thread states actions t
  := by
  intro hfair
  -- the induction is on the measure of the state from which on a thread helps
  have hnone (m : ℕ) : ∀ n, first ≤ n → measure (states n) ≠ m := by
    induction m using Nat.strongRecOn with
    | ind m ih =>
        rintro n hn rfl
        obtain ⟨k, hk, htaken⟩ := hfair (helpful (states n)) n
        obtain ⟨j, rfl⟩ := Nat.exists_eq_add_of_le hk
        rcases helpful_stays (fun k hk => hstep k (Nat.le_trans hn hk)) j with
          ⟨k, hnk, hlt⟩ | ⟨hmeasure, hhelpful⟩
        · apply ih _ hlt k (by omega) rfl
        · have hable' := hable (n + j) (by omega)
          rcases hstep (n + j) (by omega) with hlt | ⟨-, -, hother⟩
          · apply ih _ (by omega) (n + j + 1) (by omega) rfl
          · rw [hhelpful] at hother hable'
            rcases htaken with htaken | hnot
            · apply hother htaken
            · apply hnot hable'
  apply hnone _ first (Nat.le_refl _) rfl

end TransitionSystem
