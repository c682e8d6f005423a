import LowLatency.Disruptor.Backpressure
import LowLatency.Disruptor.MulticastLog

/-!
# The disruptor on one thread

A program which performs its operations one after another runs the machine in a particular
way: each call runs to its return before the next one begins, and every load reads the
current value.
-/

namespace Disruptor

variable {P Q Event : Type}

/-- A bound on the steps left in a call of a consumer. -/
def Consumer.remaining : ConsumerPc P → ℕ
  | .idle => 0
  | .loadCursor maxCount => 2 * maxCount + 5
  | .loadPublished _ maxCount => 2 * maxCount + 4
  | .handle _ count index => 2 * (count - index) + 3
  | .running _ count index => 2 * (count - index) + 2
  | .store _ _ => 1

/-- Every step of a call comes closer to its return. -/
theorem Consumer.remaining_resume {A : PositionArithmetic P} {g : Geometry}
    {events : ℕ → Event} {published : Location P} {place : ℕ} {c c' : Consumer P Event}
    (h : c.resume A g events published place = some c') :
  remaining c'.pc < remaining c.pc
  := by
  cases resumed_of_resume h with
  | loadCursor maxCount hpc =>
      rw [hpc]
      simp only [goto, remaining]
      omega
  | loadPublished first maxCount v hpc =>
      rw [hpc, loadPublished]
      split
      · simp only [finish, remaining]
        omega
      · simp only [begin, goto, remaining]
        split_ifs
        · omega
        · omega
  | handle first count index hpc =>
      rw [hpc]
      simp only [enter, remaining]
      omega
  | running first count index hpc =>
      rw [hpc, leave]
      split
      · simp only [goto, remaining]
        omega
      · simp only [remaining]
        omega
  | store first count hpc =>
      rw [hpc]
      simp only [store, finish, remaining]
      omega

theorem Consumer.remaining_map (f : P → Q) (pc : ConsumerPc P) :
  remaining (pc.map f) = remaining pc
  := by
  cases pc with
  | _ => rfl

theorem Producer.remaining_map (f : P → Q) (g : Geometry) (pc : ProducerPc P Event) :
  remaining g (pc.map f) = remaining g pc
  := by
  cases pc with
  | _ => rfl

namespace State

variable (A : PositionArithmetic P) (g : Geometry)

/-- The next step of the call of consumer `i`, which loads the current published position. -/
def resumeConsumer (i : ℕ) (s : State P Event) : Option (State P Event) :=
  s.step A g (.consumer i (.resume s.producer.published.last))

/-- The state after the publication under way returns. -/
def returnProducer (s : State P Event) : State P Event :=
  TransitionSystem.settle (fun t => t.callStep A g .resume)
    (Producer.remaining g s.producer.pc) s

/-- The state after the call of consumer `i` returns. -/
def returnConsumer (i : ℕ) (s : State P Event) : State P Event :=
  TransitionSystem.settle (resumeConsumer A g i) (Consumer.remaining (s.consumer i).pc) s

/-- A publication from its beginning to its return. -/
def performPublish (s : State P Event) (a : ProducerAction Event) :
    Option (Response P Event × State P Event) :=
  (s.step A g (.producer a)).map fun t =>
    let u := t.returnProducer A g
    (.published (u.producer.returned.getLastD false), u)

/-- An indexed call from its beginning to its return. -/
def performConsume (s : State P Event) (i maxCount : ℕ) :
    Option (Response P Event × State P Event) :=
  (s.step A g (.consumer i (.consume maxCount))).map fun t =>
    let u := t.returnConsumer A g i
    (.consumed ((u.consumer i).returned.getLastD 0)
      ((u.consumer i).handled.drop (s.consumer i).handled.length), u)

/-- An operation on the handles, which takes one step. -/
def performSession (s : State P Event) (a : ProducerAction Event) :
    Option (Response P Event × State P Event) :=
  (s.step A g (.producer a)).map fun t => (.done, t)

/-- The answer of the disruptor to an operation. -/
def perform [Zero P] : Service (State P Event) (Operation Event) (Response P Event) :=
  fun s op =>
  match op with
  | .publish count writer => s.performPublish A g (.publish count writer)
  | .publishHandle count writer => s.performPublish A g (.publishHandle count writer)
  | .makeProducer => s.performSession A g .makeProducer
  | .moveHandle => s.performSession A g .moveHandle
  | .destroyHandle => s.performSession A g .destroyHandle
  | .destroyMovedFrom place => s.performSession A g (.destroyMovedFrom place)
  | .handlePosition =>
      s.producer.session.map fun h => (.position h.state.nextToPublish, s)
  | .consume i maxCount => s.performConsume A g i maxCount
  | .publishedPosition => some (.position (s.publishedPosition s.producer.published.last), s)
  | .consumerPosition i =>
      some (.position (s.consumerPosition g i (s.released i).last), s)

end State

end Disruptor
