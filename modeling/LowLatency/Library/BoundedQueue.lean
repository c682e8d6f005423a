import Mathlib.Logic.Function.Basic
import LowLatency.Library.Service
import LowLatency.Library.Wrapping

/-!
# Bounded queues in a ring of slots

A first-in first-out queue that refuses a value when it holds as many as it may, as a service;
and how the slots of a ring hold such a queue: from a position on, each value in the slot of its
position modulo the size of the ring.
-/

universe u v

/-- An attempt on a queue. -/
inductive QueueRequest (α : Type u) where
  | push (value : α)
  | pop

/-- Whether a value was accepted, and the value taken, if there was one. -/
inductive QueueResponse (α : Type u) where
  | pushed (accepted : Bool)
  | popped (value : Option α)

/-- The service of a structure with an operation that tries to push and one that tries to pop. -/
def attempts {σ : Type v} {α : Type u} (tryPush : σ → α → Bool × σ)
    (tryPop : σ → Option α × σ) : Service σ (QueueRequest α) (QueueResponse α) :=
  fun s request =>
  match request with
  | .push value => some (.pushed (tryPush s value).1, (tryPush s value).2)
  | .pop => some (.popped (tryPop s).1, (tryPop s).2)

/-- Such a service answers every request. -/
theorem exists_responses {σ : Type v} {α : Type u} (tryPush : σ → α → Bool × σ)
    (tryPop : σ → Option α × σ) (requests : List (QueueRequest α)) (s : σ) :
  ∃ responses, Service.responses (attempts tryPush tryPop) requests s = some responses
  := by
  induction requests generalizing s with
  | nil =>
      use []
      rfl
  | cons request requests ih =>
      obtain ⟨response, s', hanswer⟩ :
          ∃ response s', attempts tryPush tryPop s request = some (response, s') := by
        cases request with
        | push value => exact ⟨_, _, rfl⟩
        | pop => exact ⟨_, _, rfl⟩
      obtain ⟨responses, hresponses⟩ := ih s'
      use response :: responses
      rw [Service.responses, hanswer, Option.bind_some, hresponses, Option.map_some]

/-- Two such services agree when their operations do. -/
theorem attempts_agree {σ τ : Type v} {α : Type u} {tryPush : σ → α → Bool × σ}
    {tryPop : σ → Option α × σ} {tryPush' : τ → α → Bool × τ} {tryPop' : τ → Option α × τ}
    {R : σ → τ → Prop} {s : σ} {t : τ}
    (hpush : ∀ value, (tryPush s value).1 = (tryPush' t value).1
      ∧ R (tryPush s value).2 (tryPush' t value).2)
    (hpop : (tryPop s).1 = (tryPop' t).1 ∧ R (tryPop s).2 (tryPop' t).2)
    (request : QueueRequest α) :
  Service.Agree R (attempts tryPush tryPop s request) (attempts tryPush' tryPop' t request)
  := by
  cases request with
  | push value =>
      obtain ⟨hresult, hrelated⟩ := hpush value
      rw [attempts, attempts, hresult]
      apply Service.Agree.answered hrelated
  | pop =>
      obtain ⟨hresult, hrelated⟩ := hpop
      rw [attempts, attempts, hresult]
      apply Service.Agree.answered hrelated

namespace BoundedQueue

def push {α : Type u} (bound : ℕ) (queue : List α) (value : α) : Bool × List α :=
  if queue.length < bound then (true, queue ++ [value]) else (false, queue)

def pop {α : Type u} (queue : List α) : Option α × List α :=
  (queue.head?, queue.tail)

/-- The queue of at most `bound` values. -/
def perform {α : Type u} (bound : ℕ) : Service (List α) (QueueRequest α) (QueueResponse α) :=
  attempts (push bound) pop

variable {α : Type u} {n p : ℕ} {slots : ℕ → α} {queue : List α}

/-! ### A ring of slots -/

/-- The `n` slots hold the queue from the position `p` on. -/
def Holds (n : ℕ) (slots : ℕ → α) (p : ℕ) (queue : List α) : Prop :=
  ∀ (k : ℕ) (h : k < queue.length), slots ((p + k) % n) = queue[k]

theorem holds_nil : Holds n slots p [] := by
  intro k h
  cases h

/-- The slot behind the queue is none of its slots. -/
theorem slot_ne (hroom : queue.length < n) {k : ℕ} (hk : k < queue.length) :
  (p + k) % n ≠ (p + queue.length) % n
  := by
  apply Wrapping.mod_ne_mod
  · omega
  · omega

/-- A write behind the queue leaves it. -/
theorem Holds.write (h : Holds n slots p queue) (hroom : queue.length < n) (value : α) :
  Holds n (Function.update slots ((p + queue.length) % n) value) p queue
  := by
  intro k hk
  rw [Function.update_of_ne (slot_ne hroom hk)]
  apply h k hk

/-- A queue goes on with what the slot behind it holds. -/
theorem Holds.concat {value : α} (h : Holds n slots p queue)
    (hslot : slots ((p + queue.length) % n) = value) :
  Holds n slots p (queue ++ [value])
  := by
  intro k hk
  rw [List.length_append, List.length_singleton] at hk
  rcases Nat.lt_or_ge k queue.length with hlt | hge
  · rw [List.getElem_append_left hlt]
    apply h k hlt
  · obtain rfl : k = queue.length := by omega
    rw [List.getElem_concat_length rfl]
    apply hslot

/-- A push writes the slot behind the queue. -/
theorem Holds.push (h : Holds n slots p queue) (hroom : queue.length < n) (value : α) :
  Holds n (Function.update slots ((p + queue.length) % n) value) p (queue ++ [value])
  := by
  apply (h.write hroom value).concat
  apply Function.update_self

theorem Holds.head {value : α} (h : Holds n slots p (value :: queue)) :
  slots (p % n) = value
  := h 0 (Nat.zero_lt_succ _)

/-- A pop goes on to the next position. -/
theorem Holds.pop {value : α} (h : Holds n slots p (value :: queue)) :
  Holds n slots (p + 1) queue
  := by
  intro k hk
  rw [Nat.add_assoc, Nat.add_comm 1 k]
  apply h (k + 1) (Nat.succ_lt_succ hk)

/-- A position counts modulo the size of the ring only. -/
theorem holds_mod : Holds n slots (p % n) queue ↔ Holds n slots p queue := by
  simp only [Holds, Nat.mod_add_mod]

end BoundedQueue
