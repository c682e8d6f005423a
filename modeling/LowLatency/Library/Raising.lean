import Mathlib.Data.List.Induction
import Mathlib.Data.Nat.Notation

/-!
# Computations that raise

Loops and comprehensions of computations that return a value or raise an exception. Each rule
says when the whole of a loop returns, or what holds of the value it returns.
-/

namespace Raising

variable {ε α β : Type}

/-! ### Sequences -/

theorem bind_eq_ok {x : Except ε α} {f : α → Except ε β} {b : β} :
  x >>= f = .ok b ↔ ∃ a, x = .ok a ∧ f a = .ok b
  := by
  cases x with
  | error e => simp [bind, Except.bind]
  | ok a => simp [bind, Except.bind]

theorem ok_bind {a : α} {f : α → Except ε β} : Except.ok a >>= f = f a := rfl

theorem pure_eq_ok {a b : α} : (pure a : Except ε α) = .ok b ↔ a = b := by
  simp [pure, Except.pure]

/-- What follows a check is reached when the check does not raise. -/
theorem raise_or_eq_ok {c : Prop} [Decidable c] {e : ε} {x : Except ε α} {a : α} :
  (if c then .error e else x) = .ok a ↔ ¬ c ∧ x = .ok a
  := by
  by_cases h : c
  · simp [h]
  · simp [h]

/-! ### Comprehensions -/

/-- The items of a list that a condition selects; the condition is evaluated on every item. -/
def select (p : α → Except ε Bool) : List α → Except ε (List α)
  | [] => .ok []
  | x :: xs => do
      let selected ← p x
      let rest ← select p xs
      return if selected then x :: rest else rest

/-- A condition that raises on no item selects what a filter does. -/
theorem select_eq_ok {p : α → Except ε Bool} {q : α → Bool} {xs : List α}
    (h : ∀ x ∈ xs, p x = .ok (q x)) :
  select p xs = .ok (xs.filter q)
  := by
  induction xs with
  | nil => rfl
  | cons x xs ih =>
      rw [select, h x List.mem_cons_self, ok_bind, ih fun y hy => h y (List.mem_cons_of_mem x hy),
        ok_bind, List.filter_cons]
      rfl

theorem of_mem_select {p : α → Except ε Bool} {xs selected : List α}
    (h : select p xs = .ok selected) {x : α} (hx : x ∈ selected) :
  x ∈ xs ∧ p x = .ok true
  := by
  induction xs generalizing selected with
  | nil =>
      cases h
      cases hx
  | cons y ys ih =>
      simp only [select, bind_eq_ok, pure_eq_ok] at h
      obtain ⟨b, hb, rest, hrest, rfl⟩ := h
      cases b with
      | false =>
          obtain ⟨hmem, htrue⟩ := ih hrest hx
          use List.mem_cons_of_mem y hmem
      | true =>
          cases List.mem_cons.mp hx with
          | inl heq =>
              subst heq
              use List.mem_cons_self
          | inr htail =>
              obtain ⟨hmem, htrue⟩ := ih hrest htail
              use List.mem_cons_of_mem y hmem

/-! ### Loops -/

theorem foldlM_concat {f : β → α → Except ε β} {xs : List α} {x : α} {init out : β} :
  (xs ++ [x]).foldlM f init = .ok out ↔ ∃ b, xs.foldlM f init = .ok b ∧ f b x = .ok out
  := by
  rw [List.foldlM_append, bind_eq_ok]
  simp only [List.foldlM_cons, List.foldlM_nil, bind_eq_ok, pure_eq_ok, exists_eq_right]

/-- What holds at first, and is kept by every pass that returns, holds at the end. -/
theorem foldlM_invariant {f : β → α → Except ε β} {I : List α → β → Prop} {init out : β}
    {xs : List α} (hinit : I [] init)
    (hstep : ∀ ys y b b', I ys b → f b y = .ok b' → I (ys ++ [y]) b')
    (h : xs.foldlM f init = .ok out) :
  I xs out
  := by
  induction xs using List.reverseRecOn generalizing out with
  | nil =>
      cases h
      apply hinit
  | append_singleton xs x ih =>
      obtain ⟨b, hb, hx⟩ := foldlM_concat.mp h
      apply hstep xs x b out (ih hb) hx

/-- A loop returns when every pass does, from whatever it starts. -/
theorem exists_foldlM_eq_ok {f : β → α → Except ε β} {b : β} {xs : List α}
    (h : ∀ x ∈ xs, ∀ b, ∃ b', f b x = .ok b') :
  ∃ out, xs.foldlM f b = .ok out
  := by
  induction xs generalizing b with
  | nil =>
      use b
      rfl
  | cons x xs ih =>
      obtain ⟨b', hb'⟩ := h x List.mem_cons_self b
      rw [List.foldlM_cons, hb']
      apply ih fun y hy => h y (List.mem_cons_of_mem x hy)

/-- Every pass of a loop that returns has returned. -/
theorem of_foldlM_eq_ok {f : β → α → Except ε β} {init out : β} {xs : List α}
    (h : xs.foldlM f init = .ok out) {x : α} (hx : x ∈ xs) :
  ∃ b b', f b x = .ok b'
  := by
  induction xs generalizing init with
  | nil => cases hx
  | cons y ys ih =>
      rw [List.foldlM_cons, bind_eq_ok] at h
      obtain ⟨b, hb, hrest⟩ := h
      cases List.mem_cons.mp hx with
      | inl heq =>
          subst heq
          use init, b
      | inr htail => apply ih hrest htail

/-- A loop of checks returns when every check does. -/
theorem forM_eq_ok {f : α → Except ε Unit} {xs : List α} :
  forM xs f = .ok () ↔ ∀ x ∈ xs, f x = .ok ()
  := by
  induction xs with
  | nil => simp [pure, Except.pure]
  | cons x xs ih =>
      rw [List.forM_cons, bind_eq_ok, List.forall_mem_cons, ← ih]
      constructor
      · rintro ⟨⟨⟩, hx, hrest⟩
        use hx
      · rintro ⟨hx, hrest⟩
        use ⟨⟩

end Raising
