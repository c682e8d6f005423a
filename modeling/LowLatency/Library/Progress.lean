import LowLatency.Library.Transition
import Mathlib.Algebra.GroupWithZero.Nat
import Mathlib.Algebra.Order.BigOperators.Group.Finset

/-!
# Progress

Some steps of a transition system are idle: the environment lets a thread try again. A measure
pays for a system if no step increases it and every step which is not idle decreases it.

* A run takes no more busy steps than the measure of its start, and an endless run is idle from
  some step on.
* If at every state that is not done some step decreases the measure, a run leads to a state
  that is done.
* If some actions cost and others provide, and a measure holds what is provided and not spent,
  a run costs no more than the measure of its start and what its actions provide.
* Where several threads take steps, a measure may add up what is left for each of them.
-/

universe u v

namespace TransitionSystem

variable {State : Type u} {Action : Type v} (M : TransitionSystem State Action)
  (idle : State → Action → Prop) [∀ s a, Decidable (idle s a)]

/-- The number of steps of a run which are not idle. -/
def work : List Action → State → ℕ
  | [], _ => 0
  | a :: as, s => (if idle s a then 0 else 1) + ((M.step a s).map (work as)).getD 0

/-- The measure pays for the steps from the states of an invariant. -/
def Pays (I : State → Prop) (measure : State → ℕ) : Prop :=
  ∀ a s t, I s → M.step a s = some t →
    I t ∧ measure t + (if idle s a then 0 else 1) ≤ measure s

variable {M idle} {I : State → Prop} {measure : State → ℕ}

/-- The measure pays for the work of a run. -/
theorem Pays.work_le (h : M.Pays idle I measure) {as : List Action} {s t : State} (hs : I s)
    (hrun : M.run as s = some t) :
  M.work idle as s + measure t ≤ measure s
  := by
  induction as generalizing s with
  | nil =>
      obtain rfl := Option.some.inj hrun
      rw [work]
      omega
  | cons a as ih =>
      obtain ⟨s', hs', hrun'⟩ := M.run_cons.mp hrun
      obtain ⟨hi, hle⟩ := h a s s' hs hs'
      have hwork := ih hi hrun'
      rw [work, hs', Option.map_some, Option.getD_some]
      omega

/-- An endless run is idle from some step on. -/
theorem Pays.eventually_idle (h : M.Pays idle I measure) {states : ℕ → State}
    {actions : ℕ → Action} (hs : I (states 0))
    (hstep : ∀ n, M.step (actions n) (states n) = some (states (n + 1))) :
  ∃ n, ∀ k, n ≤ k → idle (states k) (actions k)
  := by
  have hinv (n : ℕ) : I (states n) := by
    induction n with
    | zero => apply hs
    | succ n ih => apply (h _ _ _ ih (hstep n)).1
  have hdecr (n : ℕ) := (h _ _ _ (hinv n) (hstep n)).2
  have hmono (n j : ℕ) : measure (states (n + j)) ≤ measure (states n) := by
    induction j with
    | zero => apply Nat.le_refl
    | succ j ih =>
        have hle := hdecr (n + j)
        rw [← Nat.add_assoc]
        omega
  -- the induction is on the measure of the states from `n` on
  have hidle (m : ℕ) : ∀ n, measure (states n) = m →
      ∃ n', ∀ k, n' ≤ k → idle (states k) (actions k) := by
    induction m using Nat.strongRecOn with
    | ind m ih =>
        intro n hn
        by_cases hrest : ∀ k, n ≤ k → idle (states k) (actions k)
        · use n
        · simp only [not_forall] at hrest
          obtain ⟨k, hk, hbusy⟩ := hrest
          obtain ⟨j, rfl⟩ := Nat.exists_eq_add_of_le hk
          have hle := hmono n j
          have hlt := hdecr (n + j)
          rw [if_neg hbusy] at hlt
          apply ih _ _ (n + j + 1) rfl
          omega
  apply hidle _ 0 rfl

/-- If at every state that is not done an action of a kind decreases the measure, a run of such
actions leads to a state that is done. -/
theorem exists_run_of_decreasing {C : Action → Prop} (Done : State → Prop) (measure : State → ℕ)
    (hstep : ∀ s, I s → ¬Done s →
      ∃ a t, C a ∧ M.step a s = some t ∧ I t ∧ measure t < measure s)
    {s : State} (hs : I s) :
  ∃ as t, (∀ a ∈ as, C a) ∧ as.length ≤ measure s ∧ M.run as s = some t ∧ I t ∧ Done t
  := by
  induction h : measure s using Nat.strongRecOn generalizing s with
  | ind m ih =>
      by_cases hdone : Done s
      · use [], s
        refine ⟨?_, Nat.zero_le m, rfl, hs, hdone⟩
        intro a ha
        cases ha
      · obtain ⟨a, s', ha, hs', hi, hlt⟩ := hstep s hs hdone
        obtain ⟨as, t, has, hlength, hrun, hit, hdt⟩ := ih (measure s') (by omega) hi rfl
        use a :: as, t
        refine ⟨?_, ?_, M.run_cons.mpr ⟨s', hs', hrun⟩, hit, hdt⟩
        · intro b hb
          rcases List.mem_cons.mp hb with rfl | hb
          · apply ha
          · apply has b hb
        · rw [List.length_cons]
          omega

/-- A run costs no more than the measure of its start and what its actions provide. -/
theorem cost_le {cost allowance : Action → ℕ}
    (hstep : ∀ a s t, M.step a s = some t → measure t + cost a ≤ measure s + allowance a)
    {as : List Action} {s t : State} (hrun : M.run as s = some t) :
  (as.map cost).sum + measure t ≤ measure s + (as.map allowance).sum
  := by
  induction as generalizing s with
  | nil =>
      obtain rfl := Option.some.inj hrun
      simp only [List.map_nil, List.sum_nil]
      omega
  | cons a as ih =>
      obtain ⟨s', hs', hrun'⟩ := M.run_cons.mp hrun
      have hle := hstep a s s' hs'
      have hrest := ih hrun'
      rw [List.map_cons, List.map_cons, List.sum_cons, List.sum_cons]
      omega

/-- A measure which adds up what is left for each thread, where that of one of them changes. -/
theorem sum_change {Thread : Type u} [DecidableEq Thread] {threads : Finset Thread} {t : Thread}
    {f g : Thread → ℕ} (ht : t ∈ threads) (hsame : ∀ t', t' ≠ t → g t' = f t') :
  threads.sum g + f t = threads.sum f + g t
  := by
  have hrest : (threads.erase t).sum g = (threads.erase t).sum f := by
    apply Finset.sum_congr rfl
    intro t' ht'
    apply hsame t' (Finset.ne_of_mem_erase ht')
  have hbefore : f t + (threads.erase t).sum f = threads.sum f :=
    Finset.add_sum_erase threads f ht
  have hafter : g t + (threads.erase t).sum g = threads.sum g :=
    Finset.add_sum_erase threads g ht
  omega

end TransitionSystem
