import LowLatency.Disruptor.Consumer
import LowLatency.Library.Service

/-!
# The bounded multicast log

What a disruptor is for: a log of events, each consumer reading it in order from an offset of
its own, with at most `capacity` events ahead of the slowest consumer. A publication is all or
nothing. The events of the log are kept in recycled storage, so a writer finds the event
`capacity` places before the one it writes.

The log answers the requests of a program which performs its operations one after another.
-/

namespace Disruptor

/-- The operations of a program on one thread. Publication is direct, or through the handle of
the session; consumption is indexed. -/
inductive Operation (Event : Type) where
  | publish (count : ℕ) (writer : Writer Event)
  | makeProducer
  | publishHandle (count : ℕ) (writer : Writer Event)
  | moveHandle
  | destroyHandle
  | destroyMovedFrom (place : ℕ)
  | handlePosition
  | consume (i maxCount : ℕ)
  | publishedPosition
  | consumerPosition (i : ℕ)

/-- What the operations return. Consumption also shows the calls of the handler. -/
inductive Response (P Event : Type) where
  | published (result : Bool)
  | consumed (count : ℕ) (events : List (Event × P))
  | position (position : P)
  | done

/-- The log: its events and the offset of each consumer. `session` tells whether a producer
handle is live, and `shells` how many handles moved from still exist. -/
structure MulticastLog (Event : Type) where
  entries : List Event
  offset : ℕ → ℕ
  session : Bool
  shells : ℕ

namespace MulticastLog

variable {P Event : Type} [Inhabited Event]

/-- The log before any operation. -/
def empty : MulticastLog Event where
  entries := []
  offset _ := 0
  session := false
  shells := 0

/-- The event found where the next event of the log is written. -/
def recycled (g : Geometry) (entries : List Event) : Event :=
  if entries.length < g.capacity then default
  else entries.getD (entries.length - g.capacity) default

/-- The log after the first `n` events of a batch are appended. -/
def append (g : Geometry) (writer : Writer Event) (entries : List Event) :
    ℕ → List Event
  | 0 => entries
  | n + 1 =>
      let l := append g writer entries n
      l ++ [writer n (recycled g l)]

/-- Every consumer has room for `count` more events. -/
abbrev HasRoom (g : Geometry) (log : MulticastLog Event) (count : ℕ) : Prop :=
  ∀ i < g.consumerCount, log.entries.length - log.offset i ≤ g.capacity - count

/-- The publication of `count` events. -/
def publish (g : Geometry) (log : MulticastLog Event) (count : ℕ)
    (writer : Writer Event) : Response P Event × MulticastLog Event :=
  if count = 0 then (.published true, log)
  else if count > g.capacity then (.published false, log)
  else if log.HasRoom g count then
    (.published true, { log with entries := append g writer log.entries count })
  else (.published false, log)

/-- The consumption of at most `maxCount` events by consumer `i`. -/
def consume (A : PositionArithmetic P) (g : Geometry) (initialPosition : P)
    (log : MulticastLog Event) (i maxCount : ℕ) : Response P Event × MulticastLog Event :=
  if i < g.consumerCount then
    let count := min maxCount (log.entries.length - log.offset i)
    (.consumed count (((stream A initialPosition log.entries).drop (log.offset i)).take count),
      { log with offset := Function.update log.offset i (log.offset i + count) })
  else (.consumed 0 [], log)

/-- The answer of the log to an operation. A direct publication is refused during a session,
and what concerns a handle without one. -/
def perform (A : PositionArithmetic P) (g : Geometry) [Zero P] (initialPosition : P) :
    Service (MulticastLog Event) (Operation Event) (Response P Event) := fun log op =>
  match op with
  | .publish count writer => if log.session then none else some (log.publish g count writer)
  | .publishHandle count writer =>
      if log.session then some (log.publish g count writer) else none
  | .makeProducer => if log.session then none else some (.done, { log with session := true })
  | .moveHandle =>
      if log.session then some (.done, { log with shells := log.shells + 1 }) else none
  | .destroyHandle => if log.session then some (.done, { log with session := false }) else none
  | .destroyMovedFrom place =>
      if place < log.shells then some (.done, { log with shells := log.shells - 1 }) else none
  | .handlePosition =>
      if log.session then
        some (.position (A.advance initialPosition log.entries.length), log)
      else none
  | .consume i maxCount => some (log.consume A g initialPosition i maxCount)
  | .publishedPosition => some (.position (A.advance initialPosition log.entries.length), log)
  | .consumerPosition i =>
      some (.position (if i < g.consumerCount then A.advance initialPosition (log.offset i)
        else 0), log)

/-- Appending a batch adds its size. -/
theorem length_append (g : Geometry) (writer : Writer Event) (entries : List Event)
    (n : ℕ) :
  (append g writer entries n).length = entries.length + n
  := by
  induction n with
  | zero => rfl
  | succ n ih =>
      rw [append, List.length_append, ih, List.length_singleton, Nat.add_assoc]

end MulticastLog

end Disruptor
