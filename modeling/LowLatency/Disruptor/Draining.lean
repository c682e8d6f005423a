import LowLatency.Disruptor.Refinement
import LowLatency.Disruptor.Reuse

/-!
# Draining

A call through a consumer handle takes no more than the rest of the range the handle has
acquired, so it may return less than an indexed call. Repeated calls deliver the same events:
until the first that returns zero they deliver what is published, whichever path makes them.

The calls may be interleaved with any steps of the producer and of the other consumers.
-/

namespace Disruptor

variable {P Event : Type}

/-! ### A call through a handle -/

/-- The range a handle has acquired when it has taken events: what it had cached, or what was
published at the load made in the call if it had cached nothing. -/
def ConsumerHandle.Acquires (h : ConsumerHandle P) (published : Location P) (view : ℕ)
    (boundary : P) : Prop :=
  (h.cachedPublishedPosition ≠ h.nextPosition → boundary = h.cachedPublishedPosition) ∧
    (h.cachedPublishedPosition = h.nextPosition → boundary = published.value view)

namespace Consumer

/-- How far a call for at most `maxCount` events is at `c`, when the handle was `h` and the
calls had returned `returned` before it. -/
def HandleCourse (published : Location ℕ) (maxCount : ℕ) (returned : List ℕ)
    (h : ConsumerHandle ℕ) (c : Consumer ℕ Event) : ConsumerPc ℕ → Prop
  | .idle => ∃ boundary,
      (maxCount = 0 → boundary = h.cachedPublishedPosition) ∧
      (maxCount ≠ 0 → h.Acquires published c.view boundary) ∧
      c.handle = some
        { nextPosition := h.nextPosition + min maxCount (boundary - h.nextPosition)
          cachedPublishedPosition := boundary } ∧
      c.returned = returned ++ [min maxCount (boundary - h.nextPosition)]
  | .loadCursor _ => False
  | .loadPublished first m =>
      m = maxCount ∧ m ≠ 0 ∧ first = h.nextPosition ∧
        h.cachedPublishedPosition = h.nextPosition ∧ c.handle = some h ∧ c.returned = returned
  | .handle _ count _ =>
      maxCount ≠ 0 ∧ c.returned = returned ∧ ∃ boundary, h.Acquires published c.view boundary ∧
        c.handle = some { h with cachedPublishedPosition := boundary } ∧
        count = min maxCount (boundary - h.nextPosition)
  | .running _ count _ =>
      maxCount ≠ 0 ∧ c.returned = returned ∧ ∃ boundary, h.Acquires published c.view boundary ∧
        c.handle = some { h with cachedPublishedPosition := boundary } ∧
        count = min maxCount (boundary - h.nextPosition)
  | .store _ count =>
      maxCount ≠ 0 ∧ c.returned = returned ∧ ∃ boundary, h.Acquires published c.view boundary ∧
        c.handle = some
          { nextPosition := h.nextPosition + count, cachedPublishedPosition := boundary } ∧
        count = min maxCount (boundary - h.nextPosition)

/-- A call through the handle `h` of `c₀` is under way, or has returned, at `c`. -/
structure HandleCall (g : Geometry) (published : Location ℕ) (maxCount : ℕ)
    (c₀ : Consumer ℕ Event) (h : ConsumerHandle ℕ) (c : Consumer ℕ Event) : Prop where
  view_le : c₀.view ≤ c.view
  cached_le : ∀ h' ∈ c.handle, h'.cachedPublishedPosition ≤ g.capacity + h.nextPosition
  course : c.HandleCourse published maxCount c₀.returned h c.pc

variable {g : Geometry} {initial : ℕ} {published published' : Location ℕ} {maxCount : ℕ}
  {written : List Event} {c₀ c c' : Consumer ℕ Event} {h : ConsumerHandle ℕ}
  {events : ℕ → Event}

/-- The number of events a batch takes. -/
theorem ite_eq_min (availableCount maxCount : ℕ) :
  (if availableCount < maxCount then availableCount else maxCount)
    = min maxCount availableCount
  := by
  split_ifs
  · omega
  · omega

/-- The first step of a call through a handle. -/
theorem handleCall_begin {i : ℕ} (hc : c.Inv g initial published written)
    (hp : Provides g initial events published written c.released.current)
    (hpc : c.pc = .idle) (hhandle : c.handle = some h)
    (hstep : c.step g.unbounded g events published i (.consumeHandle maxCount) = some c') :
  HandleCall g published maxCount c h c'
  := by
  obtain ⟨hle, hcached⟩ := hc.cached_bounds hp hpc hhandle
  have hbound : ∀ h' ∈ c.handle,
      h'.cachedPublishedPosition ≤ g.capacity + h.nextPosition := by
    intro h' hh'
    obtain rfl : h = h' := Option.some.inj (hhandle.symm.trans hh')
    apply hcached
  simp only [step, hpc, hhandle] at hstep
  by_cases hzero : maxCount = 0
  · rw [if_pos hzero] at hstep
    obtain rfl := Option.some.inj hstep
    use le_rfl, hbound, h.cachedPublishedPosition
    simp [finish, hzero, hhandle]
  · rw [if_neg hzero] at hstep
    by_cases havailable :
        g.unbounded.distance h.cachedPublishedPosition h.nextPosition = 0
    · rw [if_pos havailable] at hstep
      rw [Geometry.unbounded_distance] at havailable
      obtain rfl := Option.some.inj hstep
      use le_rfl, hbound, rfl, hzero, rfl, by omega, hhandle
      rfl
    · rw [if_neg havailable] at hstep
      rw [Geometry.unbounded_distance] at havailable
      obtain rfl := Option.some.inj hstep
      use le_rfl, hbound, hzero, rfl, h.cachedPublishedPosition
      constructor
      · use fun _ => rfl
        intro heq
        omega
      · use hhandle
        apply ite_eq_min

/-- A call keeps its course when the producer publishes. -/
theorem HandleCall.of_extends (hcall : HandleCall g published maxCount c₀ h c)
    (hview : c.view ≤ published.last) (hextends : published.Extends published') :
  HandleCall g published' maxCount c₀ h c
  := by
  have hacquires : ∀ boundary, h.Acquires published c.view boundary →
      h.Acquires published' c.view boundary := by
    intro boundary hacquires
    rw [ConsumerHandle.Acquires, hextends.value_eq hview]
    apply hacquires
  obtain ⟨hle, hbound, hcourse⟩ := hcall
  use hle, hbound
  cases hpc : c.pc with
  | idle =>
      rw [hpc] at hcourse
      obtain ⟨boundary, hnone, hsome, hrest⟩ := hcourse
      use boundary, hnone, fun hmax => hacquires boundary (hsome hmax)
  | loadCursor m =>
      rw [hpc] at hcourse
      apply hcourse
  | loadPublished first m =>
      rw [hpc] at hcourse
      apply hcourse
  | _ =>
      rw [hpc] at hcourse
      obtain ⟨hmax, hreturned, boundary, hboundary, hrest⟩ := hcourse
      use hmax, hreturned, boundary, hacquires boundary hboundary

/-- A call keeps its course when it is resumed. -/
theorem HandleCall.resume {place : ℕ} (hc : c.Inv g initial published written)
    (hp : Provides g initial events published written c.released.current)
    (hcall : HandleCall g published maxCount c₀ h c)
    (hresume : c.resume g.unbounded g events published place = some c') :
  HandleCall g published maxCount c₀ h c'
  := by
  obtain ⟨hview, hbound, hcourse⟩ := hcall
  cases resumed_of_resume hresume with
  | loadCursor m hpc =>
      rw [hpc] at hcourse
      cases hcourse
  | loadPublished first m v hpc hload =>
      rw [hpc] at hcourse
      obtain ⟨hplace, hlast, rfl⟩ := Location.load_eq_some_iff.mp hload
      obtain ⟨rfl, hmax, rfl, hempty, hhandle, hreturned⟩ := hcourse
      have hacquires : h.Acquires published place (published.value place) := by
        use fun hne => absurd hempty hne
        intro _
        rfl
      have hbound' : published.value place ≤ g.capacity + h.nextPosition := by
        have hat := hc.atPc
        rw [hpc] at hat
        obtain ⟨hfirst, -⟩ := hat
        rw [hfirst]
        apply le_trans (hp.growing.le_current hlast) hp.current_le_capacity
      have hcached : ∀ h' ∈ c.handle.map (·.cache (published.value place)),
          h'.cachedPublishedPosition ≤ g.capacity + h.nextPosition := by
        intro h' hh'
        obtain ⟨h'', -, rfl⟩ := Option.map_eq_some_iff.mp hh'
        apply hbound'
      rw [loadPublished, Geometry.unbounded_distance]
      split
      case isTrue hzero =>
        use le_trans hview hplace, hcached, published.value place, fun h0 => absurd h0 hmax,
          fun _ => hacquires
        simp [finish, hhandle, hreturned, hzero, ConsumerHandle.cache]
      case isFalse hpos =>
        use le_trans hview hplace, hcached, hmax, hreturned, published.value place, hacquires
        constructor
        · simp [begin, goto, hhandle, ConsumerHandle.cache]
        · apply ite_eq_min
  | handle first count index hpc =>
      rw [hpc] at hcourse
      use hview, hbound
      apply hcourse
  | running first count index hpc =>
      rw [hpc] at hcourse
      rw [leave]
      split
      · use hview, hbound
        apply hcourse
      · obtain ⟨hmax, hreturned, boundary, hacquires, hhandle, hcount⟩ := hcourse
        use hview
        · intro h' hh'
          obtain ⟨h'', hh'', rfl⟩ := Option.map_eq_some_iff.mp hh'
          apply hbound h'' hh''
        · use hmax, hreturned, boundary, hacquires
          simp [hhandle, ConsumerHandle.advance, hcount]
  | store first count hpc =>
      rw [hpc] at hcourse
      obtain ⟨hmax, hreturned, boundary, hacquires, hhandle, rfl⟩ := hcourse
      use hview, hbound, boundary, fun h0 => absurd h0 hmax, fun _ => hacquires
      simp [store, finish, hhandle, hreturned]

end Consumer

/-! ### Calls among the steps of the others -/

/-- Among these actions consumer `i` does nothing but resume its call. -/
def OnlyResumes (i : ℕ) (as : List (Action Event)) : Prop :=
  ∀ action, .consumer i action ∈ as → ∃ place, action = .resume place

/-- The result of a call for at most `maxCount` events, from `t` to `t'`, through the handle of
consumer `i`, which was `h` and is `h'`: the call has returned `count`. -/
structure HandleResult (A : PositionArithmetic P) (initialPosition : P) (i maxCount : ℕ)
    (t t' : State P Event) (h h' : ConsumerHandle P) (count : ℕ) : Prop where
  handle : (t'.consumer i).handle = some h'
  returned : (t'.consumer i).returned = (t.consumer i).returned ++ [count]
  view_le : (t.consumer i).view ≤ (t'.consumer i).view
  view_le_last : (t'.consumer i).view ≤ t'.producer.published.last
  acquires : maxCount ≠ 0 →
    h.Acquires t'.producer.published (t'.consumer i).view h'.cachedPublishedPosition
  zero_iff : count = 0 ↔ maxCount = 0 ∨ h.cachedPublishedPosition = h.nextPosition ∧
    t'.producer.published.value (t'.consumer i).view = h.nextPosition
  count_eq : count = min maxCount (A.distance h'.cachedPublishedPosition h.nextPosition)
  position : h'.nextPosition = A.advance h.nextPosition count
  released : (t'.released i).current = h'.nextPosition
  handled : (t'.consumer i).handled = (t.consumer i).handled ++
    ((stream A initialPosition t'.producer.written).drop
      (t.consumer i).handled.length).take count
  sequences : ((t'.consumer i).handled.drop (t.consumer i).handled.length).map Prod.snd =
    (List.range count).map (A.advance h.nextPosition)

namespace State

section Call

variable {g : Geometry} {initial i maxCount : ℕ} {s s' : State ℕ Event}
  {c₀ : Consumer ℕ Event} {h : ConsumerHandle ℕ}

/-- A step of another party leaves a consumer as it is. -/
theorem consumer_of_step {A : PositionArithmetic P} {t t' : State P Event} {a : Action Event}
    (hother : ∀ action, a ≠ .consumer i action) (hstep : t.step A g a = some t') :
  t'.consumer i = t.consumer i
  := by
  cases a with
  | producer action =>
      obtain ⟨p, -, rfl⟩ := step_producer.mp hstep
      rfl
  | consumer j action =>
      obtain ⟨c, -, rfl⟩ := step_consumer.mp hstep
      have hne : i ≠ j := by
        rintro rfl
        apply hother action rfl
      apply Function.update_of_ne hne

theorem Inv.run [Inhabited Event] {as : List (Action Event)} (hs : s.Inv g initial)
    (hrun : (machine Event g.unbounded g initial).run as s = some s') :
  s'.Inv g initial
  := TransitionSystem.run_invariant (fun _ _ _ hi h => hi.step h) hs hrun

/-- A call keeps its course among the steps of the others. -/
theorem handleCall_of_run [Inhabited Event] (hi : i < g.consumerCount) {as : List (Action Event)}
    (hs : s.Inv g initial)
    (hcall : Consumer.HandleCall g s.producer.published maxCount c₀ h (s.consumer i))
    (honly : OnlyResumes i as)
    (hrun : (machine Event g.unbounded g initial).run as s = some s') :
  Consumer.HandleCall g s'.producer.published maxCount c₀ h (s'.consumer i)
  := by
  induction as generalizing s with
  | nil =>
      obtain rfl := Option.some.inj hrun
      apply hcall
  | cons a as ih =>
      obtain ⟨u, hstep, hrun⟩ := TransitionSystem.run_cons _ |>.mp hrun
      apply ih (hs.step hstep) _ _ hrun
      · by_cases hother : ∀ action, a ≠ .consumer i action
        · rw [consumer_of_step hother hstep]
          apply hcall.of_extends (hs.consumer i hi).view_le
          apply (later_of_step hstep).producer.published
        · push Not at hother
          obtain ⟨action, rfl⟩ := hother
          obtain ⟨place, rfl⟩ := honly action List.mem_cons_self
          obtain ⟨c, hc, rfl⟩ := step_consumer.mp hstep
          simp only [Function.update_self]
          apply hcall.resume (hs.consumer i hi) (hs.provides hi) hc
      · intro action hmem
        apply honly action (List.mem_cons_of_mem a hmem)

/-- Between two states where a consumer is idle its handler is called on what it releases. -/
theorem Inv.handled_append (hs : s.Inv g initial) (hs' : s'.Inv g initial) (hlater : s.Later s')
    (hi : i < g.consumerCount) (hidle : (s.consumer i).pc = .idle)
    (hidle' : (s'.consumer i).pc = .idle) :
  (s.consumer i).handled.length = (s.released i).current - initial ∧
    (s'.released i).current ≤ initial + s'.producer.written.length ∧
    (s'.consumer i).handled = (s.consumer i).handled ++
      ((stream g.unbounded initial s'.producer.written).drop (s.consumer i).handled.length).take
        ((s'.released i).current - (s.released i).current)
  := by
  obtain ⟨n, hn, hle, hhandled⟩ := (hs.consumer i hi).handled
  obtain ⟨n', hn', hle', hhandled'⟩ := (hs'.consumer i hi).handled
  rw [hidle] at hn
  rw [hidle'] at hn'
  simp only [Consumer.done, Nat.add_zero] at hn hn'
  have hreleased : (s.released i).current ≤ (s'.released i).current :=
    (hs'.consumer i hi).growing.current_le_of_extends (hlater.released i)
  have hlength : (s.consumer i).handled.length = n := by
    rw [hhandled, List.length_take, length_stream, Nat.min_eq_left hle]
  have hsame :
      (s.consumer i).handled = (stream g.unbounded initial s'.producer.written).take n := by
    rw [hhandled]
    symm
    apply take_eq_of_extends (prefix_stream _ _ hlater.producer.written)
    rw [length_stream]
    apply hle
  have hcount : (s'.released i).current - (s.released i).current = n' - n := by
    simp only [released]
    omega
  have hnn' : n + (n' - n) = n' := by
    simp only [released] at hreleased
    omega
  rw [hlength, hcount]
  constructor
  · simp only [released]
    omega
  constructor
  · simp only [released]
    omega
  · rw [hsame, ← List.take_add, hnn', hhandled']

/-- The sequences of consecutive events of the stream. -/
theorem map_snd_stream {written : List Event} {k n : ℕ} (h : k + n ≤ written.length) :
  (((stream g.unbounded initial written).drop k).take n).map Prod.snd =
    (List.range n).map (g.unbounded.advance (initial + k))
  := by
  apply List.ext_getElem
  · simp
    omega
  · intro index hindex hindex'
    simp [stream, Nat.add_assoc]

/-- When a call takes nothing. -/
theorem zero_iff {published : Location ℕ} {view boundary : ℕ}
    (hle : h.nextPosition ≤ h.cachedPublishedPosition)
    (hboundary : h.nextPosition + min maxCount (boundary - h.nextPosition) ≤ boundary)
    (hnone : maxCount = 0 → boundary = h.cachedPublishedPosition)
    (hsome : maxCount ≠ 0 → h.Acquires published view boundary) :
  min maxCount (boundary - h.nextPosition) = 0 ↔
    maxCount = 0 ∨ h.cachedPublishedPosition = h.nextPosition ∧
      published.value view = h.nextPosition
  := by
  by_cases hmax : maxCount = 0
  · simp [hmax]
  · obtain ⟨hkept, hloaded⟩ := hsome hmax
    by_cases hempty : h.cachedPublishedPosition = h.nextPosition
    · rw [hloaded hempty] at hboundary ⊢
      simp only [hmax, hempty, true_and, false_or]
      omega
    · have hcached := hkept hempty
      have hpos : 0 < min maxCount (boundary - h.nextPosition) := by
        rw [Nat.lt_min]
        omega
      simp only [hmax, hempty, false_and, or_false, hpos.ne']

/-- What a call through a handle has done when it returns. -/
theorem Inv.handleResult [Inhabited Event] (hs : s.Inv g initial) (hi : i < g.consumerCount)
    {as : List (Action Event)} (hidle : (s.consumer i).pc = .idle)
    (hhandle : (s.consumer i).handle = some h)
    (hrun : (machine Event g.unbounded g initial).run
      (.consumer i (.consumeHandle maxCount) :: as) s = some s')
    (honly : OnlyResumes i as) (hidle' : (s'.consumer i).pc = .idle) :
  ∃ h' count, HandleResult g.unbounded initial i maxCount s s' h h' count ∧
    h.nextPosition ≤ h'.cachedPublishedPosition ∧
    h'.cachedPublishedPosition ≤ g.capacity + h.nextPosition
  := by
  have hlater := later_of_run hrun
  have hs' := hs.run hrun
  obtain ⟨u, hstep, hrun⟩ := TransitionSystem.run_cons _ |>.mp hrun
  have hu : u.Inv g initial := Inv.step (a := .consumer i (.consumeHandle maxCount)) hs hstep
  obtain ⟨c, hc, rfl⟩ := step_consumer.mp hstep
  have hbegin := Consumer.handleCall_begin (hs.consumer i hi) (hs.provides hi) hidle hhandle hc
  have hcall : Consumer.HandleCall g s'.producer.published maxCount (s.consumer i) h
      (s'.consumer i) := by
    apply handleCall_of_run hi hu _ honly hrun
    simpa only [Function.update_self] using hbegin
  obtain ⟨hview, hcached, hcourse⟩ := hcall
  rw [hidle'] at hcourse
  obtain ⟨boundary, hnone, hsome, hhandle', hreturned⟩ := hcourse
  have hnext := (hs.consumer i hi).next_eq h hhandle
  have hnext' := (hs'.consumer i hi).next_eq _ hhandle'
  have hle := (hs.consumer i hi).next_le h hhandle
  have hle' := (hs'.consumer i hi).next_le _ hhandle'
  simp only [hidle, Consumer.ahead, Nat.add_zero] at hnext
  simp only [hidle', Consumer.ahead, Nat.add_zero] at hnext'
  dsimp only at hle'
  obtain ⟨hlength, hwritten, hhandled⟩ := hs.handled_append hs' hlater hi hidle hidle'
  have hcount : (s'.released i).current - (s.released i).current =
      min maxCount (boundary - h.nextPosition) := by
    simp only [State.released, ← hnext, ← hnext', Nat.add_sub_cancel_left]
  rw [hcount] at hhandled
  have hsequences := congrArg (List.drop (s.consumer i).handled.length) hhandled
  rw [List.drop_left] at hsequences
  have hinitial := (hs.consumer i hi).initial_le
  have hend : (s.consumer i).handled.length + min maxCount (boundary - h.nextPosition) ≤
      s'.producer.written.length := by
    simp only [State.released] at hlength hwritten hcount
    omega
  use { nextPosition := h.nextPosition + min maxCount (boundary - h.nextPosition)
        cachedPublishedPosition := boundary }, min maxCount (boundary - h.nextPosition)
  constructor
  · constructor
    · apply hhandle'
    · apply hreturned
    · apply hview
    · apply (hs'.consumer i hi).view_le
    · apply hsome
    · apply zero_iff hle hle' hnone hsome
    · rfl
    · rfl
    · apply hnext'.symm
    · apply hhandled
    · rw [hsequences, map_snd_stream hend]
      congr 1
      funext index
      simp only [State.released] at hlength
      rw [Geometry.unbounded_advance, Geometry.unbounded_advance, hlength]
      omega
  · constructor
    · dsimp only
      omega
    · apply hcached _ hhandle'

end Call

end State

/-! ### Repeated calls -/

/-- Among these actions consumer `i` does nothing but call for at least one event, along
`call`, and resume its calls with loads at place `place`. -/
def OnlyDrains (i : ℕ) (call : ℕ → ConsumerAction) (place : ℕ) (as : List (Action Event)) :
    Prop :=
  ∀ action, .consumer i action ∈ as →
    (∃ maxCount > 0, action = call maxCount) ∨ action = .resume place

/-- From `c₀` to `c` the calls have returned `counts`, where `position` is published. -/
structure Drained (position : ℕ) (c₀ c : Consumer ℕ Event) (counts : List ℕ) : Prop where
  returned : c.returned = c₀.returned ++ counts
  released : c.released.current = c₀.released.current + counts.sum
  exhausted : 0 ∈ counts → c.released.current = position

/-- The calls that return before the first zero take at least one event each. -/
theorem length_takeWhile_le_sum (counts : List ℕ) :
  (counts.takeWhile (· ≠ 0)).length ≤ counts.sum
  := by
  induction counts with
  | nil => apply le_rfl
  | cons count counts ih =>
      by_cases hzero : count = 0
      · simp [hzero]
      · rw [List.takeWhile_cons_of_pos (by simpa using hzero), List.length_cons, List.sum_cons]
        omega

namespace Consumer

variable {g : Geometry} {initial i : ℕ} {published : Location ℕ} {written : List Event}
  {c₀ c c' : Consumer ℕ Event} {events : ℕ → Event}

/-- A step of a drain leaves what is released and returned, or a call returns. It returns zero
where all that is published is released. -/
theorem drain_cases {call : ℕ → ConsumerAction} (hcall : call = .consume ∨ call = .consumeHandle)
    {a : ConsumerAction} (ha : (∃ maxCount > 0, a = call maxCount) ∨ a = .resume published.last)
    (hi : i < g.consumerCount) (hc : c.Inv g initial published written)
    (hp : Provides g initial events published written c.released.current)
    (hstep : c.step g.unbounded g events published i a = some c') :
  c'.returned = c.returned ∧ c'.released = c.released ∨
    ∃ count, c'.returned = c.returned ++ [count] ∧
      c'.released.current = c.released.current + count ∧
      (count = 0 → c'.released.current = published.current)
  := by
  cases ha with
  | inl hbegin =>
      left
      obtain ⟨maxCount, hpos, rfl⟩ := hbegin
      cases hcall with
      | inl hconsume =>
          subst hconsume
          simp only [step] at hstep
          split at hstep
          case h_1 =>
            rw [if_neg (by omega)] at hstep
            obtain rfl := Option.some.inj hstep
            use rfl
            rfl
          case h_2 => cases hstep
      | inr hhandle =>
          subst hhandle
          simp only [step] at hstep
          split at hstep
          case h_1 h hpc hh =>
            rw [if_neg (by omega)] at hstep
            split_ifs at hstep
            all_goals
              obtain rfl := Option.some.inj hstep
              use rfl
              rfl
          case h_2 => cases hstep
  | inr hresume =>
      subst hresume
      have hat := hc.atPc
      cases resumed_of_resume hstep with
      | loadPublished first maxCount v hpc hload =>
          rw [hpc] at hat
          obtain ⟨-, -, rfl⟩ := Location.load_eq_some_iff.mp hload
          obtain ⟨rfl, -⟩ := hat
          rw [loadPublished, Geometry.unbounded_distance]
          split
          case isTrue hzero =>
            right
            use 0, rfl, rfl
            intro _
            have hview := hp.growing.le_current hc.view_le
            have hreleased := hc.released_le
            simp only [finish, Location.current] at hview hreleased hzero ⊢
            omega
          case isFalse =>
            left
            use rfl
            rfl
      | store first count hpc =>
          have hstore := hc.store_eq hpc
          rw [hpc] at hat
          obtain ⟨-, hpos⟩ := hat
          right
          use count, rfl
          rw [hstore, Location.current_store]
          use rfl
          intro hzero
          omega
      | running first count index =>
          left
          rw [leave]
          split
          · use rfl
            rfl
          · use rfl
      | _ =>
          left
          use rfl
          rfl

/-- A step of a drain. -/
theorem step_drained {counts : List ℕ} (hd : Drained published.current c₀ c counts)
    (hc' : c'.Inv g initial published written) (hgrowing : published.Growing)
    (hcases : c'.returned = c.returned ∧ c'.released = c.released ∨
      ∃ count, c'.returned = c.returned ++ [count] ∧
        c'.released.current = c.released.current + count ∧
        (count = 0 → c'.released.current = published.current)) :
  ∃ counts', Drained published.current c₀ c' counts'
  := by
  cases hcases with
  | inl hsame =>
      obtain ⟨hreturned, hreleased⟩ := hsame
      use counts
      constructor
      · rw [hreturned, hd.returned]
      · rw [hreleased, hd.released]
      · rw [hreleased]
        apply hd.exhausted
  | inr hreturns =>
      obtain ⟨count, hreturned, hreleased, hzero⟩ := hreturns
      use counts ++ [count]
      constructor
      · rw [hreturned, hd.returned, List.append_assoc]
      · rw [hreleased, hd.released, List.sum_append, List.sum_singleton, Nat.add_assoc]
      · intro hmem
        cases List.mem_append.mp hmem with
        | inl hbefore =>
            have hexhausted := hd.exhausted hbefore
            have hle := le_trans hc'.released_le (hgrowing.le_current hc'.view_le)
            omega
        | inr hlast => apply hzero (List.mem_singleton.mp hlast).symm

end Consumer

namespace State

section Drain

variable {g : Geometry} {initial i : ℕ} {s s' : State ℕ Event} {c₀ : Consumer ℕ Event}

/-- The calls of a drain among the steps of the others, with no publication in between. -/
theorem drained_of_run [Inhabited Event] (hi : i < g.consumerCount)
    {call : ℕ → ConsumerAction} (hcall : call = .consume ∨ call = .consumeHandle)
    {as : List (Action Event)} {counts : List ℕ} (hs : s.Inv g initial)
    (hd : Drained s.producer.published.current c₀ (s.consumer i) counts)
    (honly : OnlyDrains i call s.producer.published.last as)
    (hrun : (machine Event g.unbounded g initial).run as s = some s')
    (hlast : s'.producer.published.last = s.producer.published.last) :
  ∃ counts', Drained s.producer.published.current c₀ (s'.consumer i) counts'
  := by
  induction as generalizing s counts with
  | nil =>
      obtain rfl := Option.some.inj hrun
      use counts
  | cons a as ih =>
      obtain ⟨u, hstep, hrun⟩ := TransitionSystem.run_cons _ |>.mp hrun
      have hu : u.Inv g initial := Inv.step (a := a) hs hstep
      have hextends := (later_of_step hstep).producer.published
      have hlater := (later_of_run hrun).producer.published.last_le
      have hulast : u.producer.published.last = s.producer.published.last := by
        have hle := hextends.last_le
        omega
      have hcurrent := hextends.current_eq hulast
      have hnext : ∃ counts', Drained u.producer.published.current c₀ (u.consumer i) counts' := by
        by_cases hother : ∀ action, a ≠ .consumer i action
        · use counts
          rw [consumer_of_step hother hstep, hcurrent]
          apply hd
        · push Not at hother
          obtain ⟨action, rfl⟩ := hother
          obtain ⟨c, hc, rfl⟩ := step_consumer.mp hstep
          have hc' := hu.consumer i hi
          simp only [Function.update_self] at hc' ⊢
          apply Consumer.step_drained hd hc' hs.producer.log.growing
          apply Consumer.drain_cases hcall (honly action List.mem_cons_self) hi
            (hs.consumer i hi) (hs.provides hi) hc
      obtain ⟨counts', hd'⟩ := hnext
      rw [← hcurrent]
      apply ih hu hd' _ hrun (hlast.trans hulast.symm)
      intro action hmem
      rw [hulast]
      apply honly action (List.mem_cons_of_mem a hmem)

end Drain

end State

/-! ### On words -/

/-- Two positions less than `2 ^ 64` apart are equal when their words are. -/
theorem toWord_eq_iff {p q : ℕ} (hle : q ≤ p) (hlt : p < q + 2 ^ 64) :
  toWord p = toWord q ↔ p = q
  := by
  constructor
  · intro heq
    have hsub : (toWord p - toWord q).toNat = p - q := Wrapping.toNat_sub_ofNat hle (by omega)
    rw [heq, BitVec.sub_self, BitVec.toNat_zero] at hsub
    omega
  · intro heq
    rw [heq]

section Words

variable {g : Geometry} {h h' : ConsumerHandle ℕ}

/-- A handle has cached at most `capacity` positions from `first` on. -/
structure CachedFrom (g : Geometry) (first : ℕ) (h : ConsumerHandle ℕ) : Prop where
  le_cached : first ≤ h.cachedPublishedPosition
  cached_le : h.cachedPublishedPosition ≤ g.capacity + first

theorem CachedFrom.toWord_eq_iff {first : ℕ} (hcached : CachedFrom g first h) :
  toWord h.cachedPublishedPosition = toWord first ↔ h.cachedPublishedPosition = first
  := by
  have hlt := g.capacity_lt
  have hbound := hcached.cached_le
  apply Disruptor.toWord_eq_iff hcached.le_cached (by omega)

theorem CachedFrom.acquires (hcached : CachedFrom g h.nextPosition h)
    {published : Location ℕ} {view boundary : ℕ} (hacquires : h.Acquires published view boundary) :
  (h.map toWord).Acquires (published.map toWord) view (toWord boundary)
  := by
  constructor
  · intro hne
    rw [hacquires.1 fun heq => hne (hcached.toWord_eq_iff.mpr heq)]
    rfl
  · intro heq
    rw [hacquires.2 (hcached.toWord_eq_iff.mp heq)]
    rfl

/-- The result of a call on words is the image of its result on unbounded positions. -/
theorem HandleResult.map {initial i maxCount count : ℕ} {s s' : State ℕ Event}
    (hresult : HandleResult g.unbounded initial i maxCount s s' h h' count)
    (hcached : CachedFrom g h.nextPosition h) (hcached' : CachedFrom g h.nextPosition h') :
  HandleResult g.wrapping (toWord initial) i maxCount (s.map toWord) (s'.map toWord)
    (h.map toWord) (h'.map toWord) count
  := by
  have hlt := g.capacity_lt
  have hstream := stream_wrapping g initial s'.producer.written
  constructor
  · simp only [State.map, Consumer.map, hresult.handle, Option.map_some]
  · apply hresult.returned
  · apply hresult.view_le
  · apply hresult.view_le_last
  · intro hmax
    apply hcached.acquires (hresult.acquires hmax)
  · rw [hresult.zero_iff]
    by_cases hmax : maxCount = 0
    · simp only [hmax, true_or]
    · simp only [hmax, false_or]
      rw [ConsumerHandle.map, hcached.toWord_eq_iff]
      apply and_congr_right
      intro hempty
      rw [← (hresult.acquires hmax).2 hempty, ← hcached'.toWord_eq_iff,
        (hresult.acquires hmax).2 hempty]
      rfl
  · rw [hresult.count_eq, Geometry.unbounded_distance]
    congr 1
    symm
    apply g.wrapping_distance hcached'.le_cached
    have hbound := hcached'.cached_le
    omega
  · simp only [ConsumerHandle.map, hresult.position, g.wrapping_advance]
  · rw [State.current_released_map, hresult.released]
    rfl
  · simp only [State.map, Consumer.map, Producer.map, hresult.handled, List.map_append,
      List.length_map, hstream, List.map_take, List.map_drop]
  · have hsequences := congrArg (List.map toWord) hresult.sequences
    rw [List.map_map, List.map_map] at hsequences
    simp only [State.map, Consumer.map, List.length_map, ← List.map_drop, List.map_map,
      ConsumerHandle.map]
    apply hsequences.trans
    apply List.map_congr_left
    intro index _
    symm
    apply g.wrapping_advance

end Words

/-! ### Whole drains -/

namespace State

/-- Repeated calls of consumer `i` have led from `t` to `t'`. When one of them has returned
zero, all that is published is released, and the handler has been called on it once and in
order. The calls before it are at most as many as the events. -/
structure DrainResult (A : PositionArithmetic P) (initialPosition : P) (i : ℕ)
    (t t' : State P Event) (counts : List ℕ) : Prop where
  returned : (t'.consumer i).returned = (t.consumer i).returned ++ counts
  released : 0 ∈ counts → (t'.released i).current = t.producer.published.current
  handled : 0 ∈ counts → (t'.consumer i).handled = (t.consumer i).handled ++
    ((stream A initialPosition t.producer.written).drop (t.consumer i).handled.length).take
      (A.distance t.producer.published.current (t.released i).current)
  length_le : (counts.takeWhile (· ≠ 0)).length ≤
    A.distance t.producer.published.current (t.released i).current

section Result

variable {g : Geometry} {initial i : ℕ} {s s' : State ℕ Event} {counts : List ℕ}

/-- The published positions a consumer has not released are at most `capacity`. -/
theorem Inv.released_bounds (hs : s.Inv g initial) (hi : i < g.consumerCount) :
  (s.released i).current ≤ s.producer.published.current ∧
    s.producer.published.current < (s.released i).current + 2 ^ 64
  := by
  have hle := hs.current_le_capacity hi
  have hlt := g.capacity_lt
  use hs.consumers.current_le i hi
  omega

theorem Inv.drainResult [Inhabited Event] (hs : s.Inv g initial) (hi : i < g.consumerCount)
    {call : ℕ → ConsumerAction} (hcall : call = .consume ∨ call = .consumeHandle)
    {as : List (Action Event)} (hidle : (s.consumer i).pc = .idle)
    (honly : OnlyDrains i call s.producer.published.last as)
    (hrun : (machine Event g.unbounded g initial).run as s = some s')
    (hlast : s'.producer.published.last = s.producer.published.last)
    (hidle' : (s'.consumer i).pc = .idle) :
  ∃ counts, DrainResult g.unbounded initial i s s' counts
  := by
  have hlater := later_of_run hrun
  have hs' := hs.run hrun
  have hnothing : Drained s.producer.published.current (s.consumer i) (s.consumer i) [] := by
    constructor
    · rw [List.append_nil]
    · rfl
    · intro hmem
      cases hmem
  obtain ⟨counts, hd⟩ := drained_of_run hi hcall hs hnothing honly hrun hlast
  obtain ⟨-, -, hhandled⟩ := hs.handled_append hs' hlater hi hidle hidle'
  have hcurrent := hlater.producer.published.current_eq hlast
  have hle := hs'.consumers.current_le i hi
  rw [hcurrent] at hle
  use counts
  constructor
  · apply hd.returned
  · apply hd.exhausted
  · intro hmem
    have hexhausted : (s'.released i).current = _ := hd.exhausted hmem
    rw [hhandled, hexhausted, Geometry.unbounded_distance]
    congr 1
    obtain ⟨rest, hrest⟩ := prefix_stream g.unbounded initial hlater.producer.written
    have hlength := hs.producer.current_le_length
    have hoffset := (hs.handled_append hs (Later.refl s) hi hidle hidle).1
    have hinitial := (hs.consumer i hi).initial_le
    rw [← hrest, List.drop_append_of_le_length, List.take_append_of_le_length]
    · rw [List.length_drop, length_stream, hoffset]
      simp only [State.released]
      omega
    · rw [length_stream, hoffset]
      have hbounds := hs.consumers.current_le i hi
      omega
  · have hsum := length_takeWhile_le_sum counts
    have hreleased := hd.released
    rw [Geometry.unbounded_distance]
    simp only [State.released] at hle ⊢
    omega

/-- The result of a drain on words is the image of its result on unbounded positions. -/
theorem DrainResult.map (hresult : DrainResult g.unbounded initial i s s' counts)
    (hs : s.Inv g initial) (hi : i < g.consumerCount) :
  DrainResult g.wrapping (toWord initial) i (s.map toWord) (s'.map toWord) counts
  := by
  obtain ⟨hle, hlt⟩ := hs.released_bounds hi
  have hdistance : g.wrapping.distance (s.map toWord).producer.published.current
      ((s.map toWord).released i).current =
      g.unbounded.distance s.producer.published.current (s.released i).current :=
    g.wrapping_distance hle hlt
  have hstream := stream_wrapping g initial s.producer.written
  constructor
  · apply hresult.returned
  · intro hmem
    rw [current_released_map, hresult.released hmem]
    rfl
  · intro hmem
    rw [hdistance]
    simp only [State.map, Consumer.map, Producer.map, hresult.handled hmem, List.map_append,
      List.length_map, hstream, List.map_take, List.map_drop]
  · rw [hdistance]
    apply hresult.length_le

/-- A call under way returns. -/
theorem Inv.exists_return [Inhabited Event] (hs : s.Inv g initial) (hi : i < g.consumerCount) :
  ∃ n s', (machine Event g.unbounded g initial).run
      (List.replicate n (.consumer i (.resume s.producer.published.last))) s = some s' ∧
    (s'.consumer i).pc = .idle ∧ s'.producer = s.producer
  := by
  obtain ⟨n, -, s', hrun, ⟨-, hproducer⟩, hidle⟩ := TransitionSystem.exists_run_replicate
    (M := machine Event g.unbounded g initial)
    (I := fun u => u.Inv g initial ∧ u.producer = s.producer)
    (a := .consumer i (.resume s.producer.published.last))
    (fun u => (u.consumer i).pc = .idle) (fun u => Consumer.remaining (u.consumer i).pc)
    (by
      rintro u ⟨hu, hproducer⟩ hpc
      obtain ⟨u', hstep⟩ := hu.exists_resumeConsumer hi hpc
      rw [resumeConsumer, hproducer] at hstep
      use u', hstep
      constructor
      · use hu.step hstep
        obtain ⟨c, -, rfl⟩ := step_consumer.mp hstep
        apply hproducer
      · obtain ⟨c, hc, rfl⟩ := step_consumer.mp hstep
        simp only [Function.update_self]
        apply Consumer.remaining_resume hc)
    ⟨hs, rfl⟩
  use n, s'

end Result

/-- Draining through a handle is indexed consumption. From any reachable state where a consumer
is idle, a call through its handle has the result of `HandleResult`; repeated calls of either
kind with no publication in between have that of `DrainResult`; and every call returns. -/
theorem drain_exact [Inhabited Event] {g : Geometry} {initialPosition : SequenceType}
    {t : State SequenceType Event}
    (ht : (machine Event g.wrapping g initialPosition).Reachable t) {i : ℕ}
    (hi : i < g.consumerCount) (hidle : (t.consumer i).pc = .idle) :
  (∀ h, (t.consumer i).handle = some h → h.nextPosition = (t.released i).current ∧
    ∀ maxCount as t', (machine Event g.wrapping g initialPosition).run
        (.consumer i (.consumeHandle maxCount) :: as) t = some t' →
      OnlyResumes i as → (t'.consumer i).pc = .idle →
      ∃ h' count, HandleResult g.wrapping initialPosition i maxCount t t' h h' count) ∧
  (∀ call, call = .consume ∨ call = .consumeHandle →
    ∀ as t', (machine Event g.wrapping g initialPosition).run as t = some t' →
      OnlyDrains i call t.producer.published.last as →
      t'.producer.published.last = t.producer.published.last → (t'.consumer i).pc = .idle →
      ∃ counts, DrainResult g.wrapping initialPosition i t t' counts) ∧
  (∀ as t', (machine Event g.wrapping g initialPosition).run as t = some t' →
    ∃ n t'', (machine Event g.wrapping g initialPosition).run
        (List.replicate n (.consumer i (.resume t'.producer.published.last))) t' = some t'' ∧
      (t''.consumer i).pc = .idle ∧ t''.producer = t'.producer)
  := by
  obtain ⟨s, hreachable, rfl⟩ := reachable_wrapping_iff.mp ht
  have hs := inv_of_reachable hreachable
  have hsidle : (s.consumer i).pc = .idle := Consumer.pc_eq_idle hidle
  constructor
  · intro h hhandle
    obtain ⟨h, hshandle, rfl⟩ := Option.map_eq_some_iff.mp hhandle
    have hnext := (hs.consumer i hi).next_eq h hshandle
    simp only [hsidle, Consumer.ahead, Nat.add_zero] at hnext
    constructor
    · rw [current_released_map, ConsumerHandle.map, hnext]
      rfl
    · intro maxCount as t' hrun honly hidle'
      rw [hs.map_run] at hrun
      obtain ⟨s', hsrun, rfl⟩ := Option.map_eq_some_iff.mp hrun
      obtain ⟨h', count, hresult, hle, hcached⟩ := hs.handleResult hi hsidle hshandle hsrun honly
        (Consumer.pc_eq_idle hidle')
      have hbounds := (hs.consumer i hi).cached_bounds (hs.provides hi) hsidle hshandle
      use h'.map toWord, count
      have hmap := hresult.map ⟨hbounds.1, hbounds.2⟩ ⟨hle, hcached⟩
      rw [toWord_toNat] at hmap
      apply hmap
  · constructor
    · intro call hcall as t' hrun honly hlast hidle'
      rw [hs.map_run] at hrun
      obtain ⟨s', hsrun, rfl⟩ := Option.map_eq_some_iff.mp hrun
      obtain ⟨counts, hresult⟩ := hs.drainResult hi hcall hsidle honly hsrun hlast
        (Consumer.pc_eq_idle hidle')
      use counts
      have hmap := hresult.map hs hi
      rw [toWord_toNat] at hmap
      apply hmap
    · intro as t' hrun
      rw [hs.map_run] at hrun
      obtain ⟨s', hsrun, rfl⟩ := Option.map_eq_some_iff.mp hrun
      have hs' := hs.run hsrun
      obtain ⟨n, u, hreturn, huidle, hproducer⟩ := hs'.exists_return hi
      use n, u.map toWord
      rw [hs'.map_run, producer_map, producer_map, hproducer]
      constructor
      · apply congrArg (Option.map (State.map toWord)) hreturn
      · rw [State.map, Consumer.pc_map, huidle]
        use rfl

/-- Two events are published across the wrap, and a consumer has made its handle. -/
def publishedTwo : List (Action ℕ) :=
  [.producer (.publish 2 fun index _ => index + 7), .producer (.resume 0), .producer (.resume 0),
    .producer (.resume 0), .consumer 1 .makeConsumer]

/-- Three calls for one event each, of which the second needs no load. -/
def threeCalls : List (Action ℕ) :=
  [.consumer 1 (.consumeHandle 1), .consumer 1 (.resume 1), .consumer 1 (.resume 1),
    .consumer 1 (.resume 1), .consumer 1 (.resume 1), .consumer 1 (.consumeHandle 1),
    .consumer 1 (.resume 1), .consumer 1 (.resume 1), .consumer 1 (.resume 1),
    .consumer 1 (.consumeHandle 1), .consumer 1 (.resume 1)]

theorem drain_exact_threeCalls :
  ∃ t t', (machine ℕ Geometry.pair.wrapping Geometry.pair (BitVec.allOnes 64)).run publishedTwo
      (init Geometry.pair (BitVec.allOnes 64)) = some t
    ∧ (machine ℕ Geometry.pair.wrapping Geometry.pair (BitVec.allOnes 64)).run threeCalls t
        = some t'
    ∧ (t'.consumer 1).handled = [(7, BitVec.allOnes 64), (8, 0)]
    ∧ (t'.consumer 1).returned = [1, 1, 0]
    ∧ ∃ counts,
        DrainResult Geometry.pair.wrapping (BitVec.allOnes 64) 1 t t' counts
  := by
  refine ⟨_, _, rfl, rfl, by decide, by decide, ?_⟩
  apply (drain_exact ⟨publishedTwo, rfl⟩ (by decide) rfl).2.1 .consumeHandle (.inr rfl) threeCalls
  · rfl
  · intro action hmem
    simp only [threeCalls, List.mem_cons, Action.consumer.injEq, true_and, List.not_mem_nil,
      or_false] at hmem
    by_cases hresume : action = .resume 1
    · right
      apply hresume
    · left
      use 1, Nat.one_pos
      simpa [hresume] using hmem
  · rfl
  · rfl

end State

end Disruptor
