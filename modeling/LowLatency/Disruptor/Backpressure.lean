import LowLatency.Disruptor.Representation

/-!
# Exact backpressure

A publication of `count` events takes three short cuts: it skips the scan when the capacity
cache suffices, it looks at the remembered blocker first, and it stops at the first consumer
found lagging. None of them makes a wrong decision. When it is accepted, every consumer has
room for the batch from the decision to the publication, and when it is rejected, some
consumer had no room for it while the call ran.

The call may be interleaved with steps of the consumers. Its loads read current values.
-/

namespace Disruptor

variable {P Event : Type} {A : PositionArithmetic P} {g : Geometry}

namespace Producer

/-! ### The course of a publication -/

/-- A batch is admitted and not yet published. -/
def Admitted : ProducerPc P Event → Prop
  | .write _ _ _ _ => True
  | .store _ => True
  | _ => False

theorem admitted_map {Q : Type} {f : P → Q} {pc : ProducerPc P Event} :
  Admitted (pc.map f) ↔ Admitted pc
  := by
  cases pc with
  | _ => rfl

/-- Where `p₀` stood before the call, nothing is decided yet at `p`. -/
structure Undecided (p₀ p : Producer P Event) : Prop where
  memory : p₀.SameMemory p
  accepted : p.accepted = p₀.accepted
  owner : p.owner = p₀.owner
  session : p.session = p₀.session
  movedFrom : p.movedFrom = p₀.movedFrom
  returned : p.returned = p₀.returned

/-- The call has returned `true`, and published `count` events. -/
structure Accepted (A : PositionArithmetic P) (count : ℕ) (p₀ p : Producer P Event) :
    Prop where
  published : p.published.current = A.advance p₀.state.nextToPublish count
  accepted : p.accepted = p₀.accepted ++ [count]
  returned : p.returned = p₀.returned ++ [true]

/-- The call has returned `false`, and changed nothing but the blocker hint of the private
state in use. -/
structure Rejected (p₀ p : Producer P Event) : Prop where
  memory : p₀.SameMemory p
  accepted : p.accepted = p₀.accepted
  state : ∃ blocker, p.owner = (p₀.setState (p₀.state.blockedBy blocker)).owner
    ∧ p.session = (p₀.setState (p₀.state.blockedBy blocker)).session
  movedFrom : p.movedFrom = p₀.movedFrom
  returned : p.returned = p₀.returned ++ [false]

/-- How far a publication of `count` events that began at `p₀` is at `p`. -/
def Course (A : PositionArithmetic P) (count : ℕ) (p₀ p : Producer P Event) :
    ProducerPc P Event → Prop
  | .idle => Accepted A count p₀ p ∨ Rejected p₀ p
  | .loadBlocker c _ => c = count ∧ Undecided p₀ p
  | .scan c _ _ _ _ => c = count ∧ Undecided p₀ p
  | .write c _ first _ =>
      c = count ∧ first = p₀.state.nextToPublish ∧ p.accepted = p₀.accepted ++ [count] ∧
        p.returned = p₀.returned
  | .store c =>
      c = count ∧ p.state.nextToPublish = A.advance p₀.state.nextToPublish count ∧
        p.accepted = p₀.accepted ++ [count] ∧ p.returned = p₀.returned

/-- A bound on the steps left in a publication. -/
def remaining (g : Geometry) : ProducerPc P Event → ℕ
  | .idle => 0
  | .loadBlocker count _ => g.consumerCount + count + 4
  | .scan count _ index _ _ => (g.consumerCount - index) + count + 3
  | .write count _ _ index => (count - index) + 2
  | .store _ => 1

variable {count : ℕ} {p₀ p p' : Producer P Event} {released : ℕ → Location P} {place : ℕ}

theorem undecided_refl (pc : ProducerPc P Event) :
  Undecided p₀ (p₀.goto pc)
  := ⟨⟨rfl, rfl, rfl⟩, rfl, rfl, rfl, rfl, rfl⟩

theorem Undecided.observe (h : Undecided p₀ p) (i place : ℕ) :
  Undecided p₀ (p.observe i place)
  := ⟨⟨h.memory.events, h.memory.published, h.memory.written⟩, h.accepted, h.owner, h.session,
    h.movedFrom, h.returned⟩

theorem Undecided.goto (h : Undecided p₀ p) (pc : ProducerPc P Event) :
  Undecided p₀ (p.goto pc)
  := ⟨⟨h.memory.events, h.memory.published, h.memory.written⟩, h.accepted, h.owner, h.session,
    h.movedFrom, h.returned⟩

/-- The private state in use is that before the call. -/
theorem Undecided.state_eq (h : Undecided p₀ p) :
  p.state = p₀.state
  := by
  rw [state, state, h.session, h.owner]

/-- A call which returns `false` leaves the blocker hint at `blocker`. -/
theorem Undecided.reject (h : Undecided p₀ p) (blocker : ℕ) :
  Rejected p₀ ((p.setState (p.state.blockedBy blocker)).finish false)
  := by
  constructor
  · use h.memory.events, h.memory.published
    apply h.memory.written
  · apply h.accepted
  · use blocker
    simp only [finish, setState, h.state_eq, h.owner, h.session, and_self]
  · apply h.movedFrom
  · simp only [finish, setState, h.returned]

theorem setState_blockedBy_self (p : Producer P Event) :
  p.setState (p.state.blockedBy p.state.blockingConsumer) = p
  := by
  obtain ⟨_, _, _, session, _, _, _, _, _, _⟩ := p
  cases session with
  | none => rfl
  | some _ => rfl

/-- A batch is admitted at the position before the call. -/
theorem Undecided.course_accept (h : Undecided p₀ p) (writer : Writer Event) :
  Course A count p₀ (p.accept count writer) (p.accept count writer).pc
  := by
  use rfl
  constructor
  · rw [h.state_eq]
  constructor
  · simp only [accept, h.accepted]
  · apply h.returned

/-- A publication of a possible size is undecided or admitted after its first step. -/
theorem course_tryPublishBatch {writer : Writer Event} (hpos : 0 < count)
    (hcount : count ≤ g.capacity) :
  Course A count p₀ (p₀.tryPublishBatch g count writer) (p₀.tryPublishBatch g count writer).pc
  := by
  rw [tryPublishBatch, if_neg (by omega), if_neg (by omega)]
  split
  · use rfl
    apply undecided_refl
  · apply Undecided.course_accept
    exact ⟨⟨rfl, rfl, rfl⟩, rfl, rfl, rfl, rfl, rfl⟩

theorem returned_tryPublishBatch {writer : Writer Event} (hpos : 0 < count)
    (hcount : count ≤ g.capacity) :
  (p₀.tryPublishBatch g count writer).returned = p₀.returned
  := by
  rw [tryPublishBatch, if_neg (by omega), if_neg (by omega)]
  split
  · rfl
  · rfl

theorem remaining_tryPublishBatch {writer : Writer Event} (hpos : 0 < count)
    (hcount : count ≤ g.capacity) :
  remaining g (p₀.tryPublishBatch g count writer).pc ≤ g.consumerCount + count + 4
  := by
  rw [tryPublishBatch, if_neg (by omega), if_neg (by omega)]
  split
  · apply le_rfl
  · simp only [accept, remaining]
    omega

/-- The steps of a publication follow its course. -/
theorem Course.resume (h : Course A count p₀ p p.pc)
    (hresume : p.resume A g released place = some p') :
  Course A count p₀ p' p'.pc
  := by
  cases resumed_of_resume hresume with
  | loadBlocker c writer v hpc =>
      rw [hpc] at h
      obtain ⟨rfl, hundecided⟩ := h
      have hobserve := hundecided.observe p.state.blockingConsumer place
      rw [loadBlocker]
      split
      · right
        have hreject := hobserve.reject
          (p.observe p.state.blockingConsumer place).state.blockingConsumer
        rw [setState_blockedBy_self] at hreject
        apply hreject
      · use rfl
        apply hobserve.goto
  | skipScanned c writer greatestLag greatestLagIndex hpc =>
      rw [hpc] at h
      obtain ⟨rfl, hundecided⟩ := h
      use rfl
      apply hundecided.goto
  | loadScanned c writer index greatestLag greatestLagIndex v hpc =>
      rw [hpc] at h
      obtain ⟨rfl, hundecided⟩ := h
      have hobserve := hundecided.observe index place
      rw [loadScanned]
      split
      · right
        apply hobserve.reject
      · split
        · use rfl
          apply hobserve.goto
        · use rfl
          apply hobserve.goto
  | endScan c writer index greatestLag greatestLagIndex hpc =>
      rw [hpc] at h
      obtain ⟨rfl, hundecided⟩ := h
      use rfl
      rw [endScan, accept, state_setState]
      constructor
      · rw [← hundecided.state_eq]
        rfl
      constructor
      · simp only [setState, hundecided.accepted]
      · apply hundecided.returned
  | write c writer first index hpc =>
      rw [hpc] at h
      obtain ⟨rfl, rfl, haccepted, hreturned⟩ := h
      rw [write]
      split
      · use rfl, rfl, haccepted
        apply hreturned
      · use rfl
        constructor
        · rw [state_goto, state_setState]
          rfl
        constructor
        · apply haccepted
        · apply hreturned
  | store c hpc =>
      rw [hpc] at h
      obtain ⟨rfl, hnext, haccepted, hreturned⟩ := h
      left
      constructor
      · rw [← hnext]
        apply Location.current_store
      · apply haccepted
      · simp only [store, finish, hreturned]

/-! ### Termination -/

/-- Every step of a publication comes closer to its return. -/
theorem remaining_resume (hresume : p.resume A g released place = some p') :
  remaining g p'.pc < remaining g p.pc
  := by
  cases resumed_of_resume hresume with
  | loadBlocker c writer v hpc =>
      rw [hpc, loadBlocker]
      split
      · simp only [finish, remaining]
        omega
      · simp only [goto, remaining]
        omega
  | skipScanned c writer greatestLag greatestLagIndex hpc hindex =>
      rw [hpc]
      simp only [goto, remaining]
      omega
  | loadScanned c writer index greatestLag greatestLagIndex v hpc hindex =>
      rw [hpc, loadScanned]
      split
      · simp only [finish, remaining]
        omega
      · split
        · simp only [goto, remaining]
          omega
        · simp only [goto, remaining]
          omega
  | endScan c writer index greatestLag greatestLagIndex hpc =>
      rw [hpc]
      simp only [endScan, accept, remaining]
      omega
  | write c writer first index hpc =>
      rw [hpc, write]
      split
      · simp only [goto, remaining]
        omega
      · simp only [goto, remaining]
        omega
  | store c hpc =>
      rw [hpc]
      simp only [store, finish, remaining]
      omega

end Producer

/-! ### A publication among the steps of the consumers -/

/-- What happens while a publication runs: the call takes its next step, or a consumer takes
a step. -/
inductive CallAction where
  | resume
  | consumer (i : ℕ) (action : ConsumerAction)

namespace State

/-- The place of the current value of the cursor the producer is about to load. -/
def currentPlace (s : State P Event) : ℕ :=
  match s.producer.pc with
  | .loadBlocker _ _ => (s.released s.producer.state.blockingConsumer).last
  | .scan _ _ index _ _ => (s.released index).last
  | _ => 0

/-- A step while a publication runs. The call loads current values, and nothing follows its
return. -/
def callStep (A : PositionArithmetic P) (g : Geometry) (s : State P Event) :
    CallAction → Option (State P Event)
  | .resume => s.step A g (.producer (.resume s.currentPlace))
  | .consumer i action =>
      match s.producer.pc with
      | .idle => none
      | _ => s.step A g (.consumer i action)

/-- The rest of the publication that is under way at `s`. -/
def publication (A : PositionArithmetic P) (g : Geometry) (s : State P Event) :
    TransitionSystem (State P Event) CallAction where
  initial := s
  step action s := s.callStep A g action

/-- The lag of consumer `i` behind the position `first`. -/
def lag (A : PositionArithmetic P) (s : State P Event) (first : P) (i : ℕ) : ℕ :=
  A.distance first (s.released i).current

section Call

variable {count : ℕ} {p₀ : Producer P Event} {t t' : State P Event}

/-- A step while a publication runs is a step of the call or of a consumer. -/
theorem callStep_cases {a : CallAction} (h : t.callStep A g a = some t') :
  (∃ p, t.producer.resume A g t.released t.currentPlace = some p
      ∧ { t with producer := p } = t')
    ∨ ∃ i action, t.step A g (.consumer i action) = some t' ∧ t'.producer = t.producer
  := by
  cases a with
  | resume =>
      left
      apply step_producer.mp h
  | consumer i action =>
      right
      use i, action
      have hstep : t.step A g (.consumer i action) = some t' := by
        simp only [callStep] at h
        split at h
        case h_1 => cases h
        case h_2 => apply h
      use hstep
      obtain ⟨c, -, rfl⟩ := step_consumer.mp hstep
      rfl

theorem reachable_of_callStep [Inhabited Event] {position : P} {a : CallAction}
    (ht : (machine Event A g position).Reachable t) (h : t.callStep A g a = some t') :
  (machine Event A g position).Reachable t'
  := by
  rcases callStep_cases h with hp | ⟨i, action, hstep, -⟩
  · have hstep : t.step A g (.producer (.resume t.currentPlace)) = some t' :=
      step_producer.mpr hp
    apply reachable_of_step ht hstep
  · apply reachable_of_step ht hstep

theorem course_of_callStep {a : CallAction}
    (ht : Producer.Course A count p₀ t.producer t.producer.pc)
    (h : t.callStep A g a = some t') :
  Producer.Course A count p₀ t'.producer t'.producer.pc
  := by
  rcases callStep_cases h with ⟨p, hp, rfl⟩ | ⟨i, action, -, hproducer⟩
  · apply ht.resume hp
  · rw [hproducer]
    apply ht

/-- The load of a cursor at the place of its current value reads that value. -/
theorem current_of_load {l : Location P} {view : ℕ} {v : P} (h : l.load view l.last = some v) :
  v = l.current
  := by
  obtain ⟨-, -, rfl⟩ := Location.load_eq_some_iff.mp h
  rfl

/-- The step that rejects a batch finds a consumer without room for it. -/
theorem exists_lagging {p : Producer P Event}
    (hcourse : Producer.Course A count p₀ t.producer t.producer.pc)
    (hblocking : t.producer.state.blockingConsumer < g.consumerCount)
    (h : t.producer.resume A g t.released t.currentPlace = some p)
    (hreturned : p.returned = p₀.returned ++ [false]) :
  ∃ i < g.consumerCount, t.lag A p₀.state.nextToPublish i > g.capacity - count
  := by
  cases Producer.resumed_of_resume h with
  | loadBlocker c writer v hpc hload =>
      rw [hpc] at hcourse
      rw [currentPlace, hpc] at hload
      obtain ⟨rfl, hundecided⟩ := hcourse
      obtain rfl := current_of_load hload
      rw [Producer.loadBlocker] at hreturned
      split at hreturned
      case isTrue hlag =>
        use t.producer.state.blockingConsumer, hblocking
        rw [← hundecided.state_eq]
        apply hlag
      case isFalse =>
        simp [Producer.goto, Producer.observe, hundecided.returned] at hreturned
  | skipScanned c writer greatestLag greatestLagIndex hpc =>
      rw [hpc] at hcourse
      simp [Producer.goto, hcourse.2.returned] at hreturned
  | loadScanned c writer index greatestLag greatestLagIndex v hpc hindex hload =>
      rw [hpc] at hcourse
      rw [currentPlace, hpc] at hload
      obtain ⟨rfl, hundecided⟩ := hcourse
      obtain rfl := current_of_load hload
      rw [Producer.loadScanned] at hreturned
      split at hreturned
      case isTrue hlag =>
        use index, hindex
        rw [← hundecided.state_eq]
        apply hlag
      case isFalse =>
        split at hreturned
        all_goals simp [Producer.goto, Producer.observe, hundecided.returned] at hreturned
  | endScan c writer index greatestLag greatestLagIndex hpc =>
      rw [hpc] at hcourse
      simp [Producer.endScan, Producer.accept, Producer.setState, hcourse.2.returned] at hreturned
  | write c writer first index hpc =>
      rw [hpc] at hcourse
      obtain ⟨-, -, -, hcourse⟩ := hcourse
      rw [Producer.write] at hreturned
      split at hreturned
      all_goals
        simp [Producer.goto, Producer.setState, Producer.put, hcourse] at hreturned
  | store c hpc =>
      rw [hpc] at hcourse
      obtain ⟨-, -, -, hcourse⟩ := hcourse
      simp [Producer.store, Producer.finish, hcourse] at hreturned

/-- The step that returns `true` publishes an admitted batch. -/
theorem admitted_of_accepted {p : Producer P Event}
    (hcourse : Producer.Course A count p₀ t.producer t.producer.pc)
    (h : t.producer.resume A g t.released t.currentPlace = some p)
    (hreturned : p.returned = p₀.returned ++ [true]) :
  Producer.Admitted t.producer.pc
  := by
  cases Producer.resumed_of_resume h with
  | loadBlocker c writer v hpc =>
      rw [hpc] at hcourse
      have hundecided := hcourse.2.returned
      rw [Producer.loadBlocker] at hreturned
      split at hreturned
      all_goals
        simp [Producer.finish, Producer.goto, Producer.observe, hundecided] at hreturned
  | skipScanned c writer greatestLag greatestLagIndex hpc =>
      rw [hpc] at hcourse
      simp [Producer.goto, hcourse.2.returned] at hreturned
  | loadScanned c writer index greatestLag greatestLagIndex v hpc =>
      rw [hpc] at hcourse
      have hundecided := hcourse.2.returned
      rw [Producer.loadScanned] at hreturned
      split at hreturned
      · simp [Producer.finish, Producer.setState, Producer.observe, hundecided] at hreturned
      · split at hreturned
        all_goals simp [Producer.goto, Producer.observe, hundecided] at hreturned
  | endScan c writer index greatestLag greatestLagIndex hpc =>
      rw [hpc] at hcourse
      simp [Producer.endScan, Producer.accept, Producer.setState, hcourse.2.returned] at hreturned
  | write c writer first index hpc =>
      rw [hpc]
      trivial
  | store c hpc =>
      rw [hpc]
      trivial

end Call

/-! ### On words -/

section Words

variable {initial count : ℕ} {s : State ℕ Event} {p₀ : Producer SequenceType Event}

theorem currentPlace_map {Q : Type} (f : P → Q) (t : State P Event) :
  (t.map f).currentPlace = t.currentPlace
  := by
  rw [currentPlace, currentPlace, producer_map, Producer.pc_map, Producer.state_map,
    ProducerState.blockingConsumer_map]
  cases t.producer.pc with
  | _ => rfl

/-- While an admitted batch is not published, every consumer has room for it. -/
theorem Inv.lag_le (hs : s.Inv g initial)
    (hcourse : Producer.Course g.wrapping count p₀ (s.map toWord).producer
      (s.map toWord).producer.pc)
    (hadmitted : Producer.Admitted (s.map toWord).producer.pc) {i : ℕ}
    (hi : i < g.consumerCount) :
  (s.map toWord).lag g.wrapping p₀.state.nextToPublish i ≤ g.capacity - count
  := by
  obtain ⟨hreleased, hroom⟩ := hs.room hi
  have hcapacity := g.capacity_lt
  have hnext := hs.producer.next_eq
  have hat := hs.producer.atPc
  rw [producer_map, Producer.pc_map] at hcourse hadmitted
  rw [lag, current_released_map]
  cases hpc : s.producer.pc with
  | write c writer first index =>
      rw [hpc] at hcourse hat
      obtain ⟨rfl, hfirst, -, -⟩ := hcourse
      obtain ⟨-, rfl, hcount⟩ := hat
      rw [← hfirst, g.wrapping_distance hreleased (by omega), Geometry.unbounded_distance]
      omega
  | store c =>
      rw [hpc] at hcourse hnext
      obtain ⟨rfl, hfirst, -, -⟩ := hcourse
      have hle := hs.consumers.current_le i hi
      simp only [Producer.ahead] at hnext
      rw [Producer.state_map, ProducerState.nextToPublish_map, hnext, toWord_add] at hfirst
      have hpublished : toWord s.producer.published.current = p₀.state.nextToPublish :=
        (BitVec.add_left_inj _).mp hfirst
      rw [← hpublished, g.wrapping_distance hle (by omega), Geometry.unbounded_distance]
      omega
  | _ =>
      rw [hpc] at hadmitted
      cases hadmitted

/-- A publication under way has a next step. -/
theorem Inv.exists_callStep (hs : s.Inv g initial) (hpc : s.producer.pc ≠ .idle) :
  ∃ s', s.callStep g.unbounded g .resume = some s'
  := by
  have hviews := hs.producer.cache.views_le
  have hblocking := hs.producer.cache.blocking
  have hresume : ∃ p, s.producer.resume g.unbounded g s.released s.currentPlace = some p := by
    rw [Producer.resume, currentPlace]
    cases h : s.producer.pc with
    | idle => cases hpc h
    | loadBlocker c writer =>
        simp only [Location.load_last (hviews _ hblocking), Option.map_some, Option.some.injEq,
          exists_eq']
    | scan c writer index greatestLag greatestLagIndex =>
        dsimp only
        split_ifs with hindex
        · simp only [Option.some.injEq, exists_eq']
        · simp only [Location.load_last (hviews _ hindex), Option.map_some, Option.some.injEq,
            exists_eq']
        · simp only [Option.some.injEq, exists_eq']
    | write c writer first index => simp only [Option.some.injEq, exists_eq']
    | store c => simp only [Option.some.injEq, exists_eq']
  obtain ⟨p, hp⟩ := hresume
  use { s with producer := p }
  apply step_producer.mpr
  use p, hp

/-- On words, a publication under way has a next step, which comes closer to its return. -/
theorem exists_callStep_wrapping [Inhabited Event] {initialPosition : SequenceType}
    {t : State SequenceType Event}
    (ht : (machine Event g.wrapping g initialPosition).Reachable t)
    (hpc : t.producer.pc ≠ .idle) :
  ∃ t', t.callStep g.wrapping g .resume = some t'
    ∧ Producer.remaining g t'.producer.pc < Producer.remaining g t.producer.pc
  := by
  obtain ⟨s, hreachable, rfl⟩ := reachable_wrapping_iff.mp ht
  have hs := inv_of_reachable hreachable
  have hidle : s.producer.pc ≠ .idle := by
    intro h
    apply hpc
    rw [producer_map, Producer.pc_map, h]
    rfl
  obtain ⟨s', hs'⟩ := hs.exists_callStep hidle
  have hstep : (s.map toWord).callStep g.wrapping g .resume = some (s'.map toWord) := by
    rw [callStep, currentPlace_map, hs.map_step]
    apply Option.map_eq_some_iff.mpr
    use s'
    constructor
    · apply hs'
    · rfl
  use s'.map toWord, hstep
  obtain ⟨p, hp, hproducer⟩ := step_producer.mp hstep
  rw [← hproducer]
  apply Producer.remaining_resume hp

end Words

/-! ### The whole publication -/

section Exact

variable {count : ℕ} {first : SequenceType} {t₀ t₁ t₂ : State SequenceType Event}

/-- Every consumer has room for `count` events from `first`. -/
def HasRoom (g : Geometry) (first : SequenceType) (count : ℕ) (t : State SequenceType Event) :
    Prop :=
  ∀ i < g.consumerCount, t.lag g.wrapping first i ≤ g.capacity - count

/-- The states of a publication which began at `p₀`. -/
structure UnderWay [Inhabited Event] (g : Geometry) (initialPosition : SequenceType)
    (count : ℕ) (p₀ : Producer SequenceType Event) (t : State SequenceType Event) : Prop where
  reachable : (machine Event g.wrapping g initialPosition).Reachable t
  course : Producer.Course g.wrapping count p₀ t.producer t.producer.pc

/-- The first step of a publication, along either path. -/
theorem step_publish {a : ProducerAction Event} {writer : Writer Event} {t t' : State P Event}
    (ha : a = .publish count writer ∨ a = .publishHandle count writer)
    (h : t.step A g (.producer a) = some t') :
  t' = { t with producer := t.producer.tryPublishBatch g count writer }
  := by
  obtain ⟨p, hp, rfl⟩ := step_producer.mp h
  rcases ha with rfl | rfl
  · simp only [Producer.step] at hp
    split at hp
    case h_1 =>
      obtain rfl := Option.some.inj hp
      rfl
    case h_2 => cases hp
  · simp only [Producer.step] at hp
    split at hp
    case h_1 =>
      obtain rfl := Option.some.inj hp
      rfl
    case h_2 => cases hp

/-- The steps of the call alone leave the consumers. -/
theorem consumer_of_solo {n : ℕ} {t t' u : State P Event}
    (h : (publication A g u).run (List.replicate n .resume) t = some t') :
  t'.consumer = t.consumer
  := by
  induction n generalizing t with
  | zero =>
      obtain rfl := Option.some.inj h
      rfl
  | succ n ih =>
      rw [List.replicate_succ, TransitionSystem.run_cons] at h
      obtain ⟨u, hu, hr⟩ := h
      obtain ⟨p, -, rfl⟩ := step_producer.mp hu
      apply ih hr

variable [Inhabited Event] {initialPosition : SequenceType} {p₀ : Producer SequenceType Event}

theorem UnderWay.callStep {a : CallAction} (h : UnderWay g initialPosition count p₀ t₁)
    (hstep : t₁.callStep g.wrapping g a = some t₂) :
  UnderWay g initialPosition count p₀ t₂
  := by
  constructor
  · apply reachable_of_callStep h.reachable hstep
  · apply course_of_callStep h.course hstep

theorem UnderWay.run {bs : List CallAction} {t : State SequenceType Event}
    (h : UnderWay g initialPosition count p₀ t₁)
    (hrun : (publication g.wrapping g t).run bs t₁ = some t₂) :
  UnderWay g initialPosition count p₀ t₂
  := by
  apply TransitionSystem.run_invariant _ h hrun
  intro _ _ _ hu hstep
  apply hu.callStep hstep

/-- An admitted batch has room. -/
theorem UnderWay.hasRoom (h : UnderWay g initialPosition count p₀ t₁)
    (hadmitted : Producer.Admitted t₁.producer.pc) :
  HasRoom g p₀.state.nextToPublish count t₁
  := by
  intro i hi
  obtain ⟨s, hreachable, rfl⟩ := reachable_wrapping_iff.mp h.reachable
  apply (inv_of_reachable hreachable).lag_le h.course hadmitted hi

/-- The step that returns finds the batch admitted, or finds no room for it. -/
theorem UnderWay.decided {a : CallAction} {result : Bool}
    (h : UnderWay g initialPosition count p₀ t₁)
    (hpc : t₁.producer.returned ≠ p₀.returned ++ [result])
    (hstep : t₁.callStep g.wrapping g a = some t₂)
    (hreturned : t₂.producer.returned = p₀.returned ++ [result]) :
  if result then Producer.Admitted t₁.producer.pc
  else ¬HasRoom g p₀.state.nextToPublish count t₁
  := by
  rcases callStep_cases hstep with ⟨p, hp, rfl⟩ | ⟨i, action, -, hproducer⟩
  · cases result with
    | true => apply admitted_of_accepted h.course hp hreturned
    | false =>
        have hblocking := (representation_of_reachable h.reachable).blocking
        obtain ⟨i, hi, hlag⟩ := exists_lagging h.course hblocking hp hreturned
        intro hroom
        have := hroom i hi
        omega
  · rw [hproducer] at hreturned
    cases hpc hreturned

/-- A publication which has returned passed a state where its batch was admitted, or where
there was no room for it. -/
theorem UnderWay.exists_decided {bs : List CallAction} {result : Bool}
    (h : UnderWay g initialPosition count p₀ t₁)
    (hpc : t₁.producer.returned ≠ p₀.returned ++ [result])
    (hrun : (publication g.wrapping g t₁).run bs t₁ = some t₂)
    (hreturned : t₂.producer.returned = p₀.returned ++ [result]) :
  ∃ cs ds t, bs = cs ++ ds ∧ (publication g.wrapping g t₁).run cs t₁ = some t
    ∧ if result then Producer.Admitted t.producer.pc
      else ¬HasRoom g p₀.state.nextToPublish count t
  := by
  apply TransitionSystem.run_passes (I := UnderWay g initialPosition count p₀)
    (Q := fun t => t.producer.returned = p₀.returned ++ [result]) _ _ h hpc hrun hreturned
  · intro _ _ _ hu hstep
    apply hu.callStep hstep
  · intro _ _ _ hu hout hstep hin
    apply hu.decided hout hstep hin

/-- A publication which runs alone returns, after a bounded number of steps. -/
theorem UnderWay.exists_return (h : UnderWay g initialPosition count p₀ t₁) :
  ∃ n ≤ Producer.remaining g t₁.producer.pc, ∃ t₂,
    (publication g.wrapping g t₁).run (List.replicate n .resume) t₁ = some t₂
      ∧ t₂.producer.pc = .idle
  := by
  obtain ⟨n, hn, t₂, hrun, -, hdone⟩ :=
    (publication g.wrapping g t₁).exists_run_replicate (I := UnderWay g initialPosition count p₀)
      (a := CallAction.resume) (fun t => t.producer.pc = .idle)
      (fun t => Producer.remaining g t.producer.pc) (fun t hu hpc => by
        obtain ⟨t', hstep, hlt⟩ := exists_callStep_wrapping hu.reachable hpc
        use t', hstep, hu.callStep hstep) h
  use n, hn, t₂

/-- Backpressure is exact. Take a publication of a possible number of events, along either
path, from any reachable state, among any steps of the consumers. From its admission to its
publication every consumer has room for the batch. When it returns `true` it has been
admitted; when it returns `false` there was a state since it began at which some consumer had
no room for the batch, and it has changed nothing but the blocker hint. Alone, it returns
after a bounded number of steps, and returns `true` exactly if every consumer has room. -/
theorem backpressure_exact {a : ProducerAction Event} {writer : Writer Event}
    (ht : (machine Event g.wrapping g initialPosition).Reachable t₀)
    (hpos : 0 < count) (hcount : count ≤ g.capacity)
    (ha : a = .publish count writer ∨ a = .publishHandle count writer)
    (h : t₀.step g.wrapping g (.producer a) = some t₁) :
  let first := t₀.producer.state.nextToPublish
  (∀ bs t₂, (publication g.wrapping g t₁).run bs t₁ = some t₂ →
      (Producer.Admitted t₂.producer.pc → HasRoom g first count t₂)
        ∧ (t₂.producer.pc = .idle →
          (Producer.Accepted g.wrapping count t₀.producer t₂.producer
              ∧ ∃ cs ds t, bs = cs ++ ds ∧ (publication g.wrapping g t₁).run cs t₁ = some t
                ∧ Producer.Admitted t.producer.pc)
            ∨ Producer.Rejected t₀.producer t₂.producer
              ∧ ∃ cs ds t, bs = cs ++ ds ∧ (publication g.wrapping g t₁).run cs t₁ = some t
                ∧ ¬HasRoom g first count t))
    ∧ (∃ n ≤ g.consumerCount + count + 4, ∃ t₂,
        (publication g.wrapping g t₁).run (List.replicate n .resume) t₁ = some t₂
          ∧ t₂.producer.pc = .idle)
    ∧ ∀ n t₂, (publication g.wrapping g t₁).run (List.replicate n .resume) t₁ = some t₂ →
        t₂.producer.pc = .idle →
          (Producer.Accepted g.wrapping count t₀.producer t₂.producer
            ↔ HasRoom g first count t₀)
  := by
  intro first
  have hreachable := reachable_of_step ht h
  have ht₁ := step_publish ha h
  have hunder : UnderWay g initialPosition count t₀.producer t₁ := by
    use hreachable
    rw [ht₁]
    apply Producer.course_tryPublishBatch hpos hcount
  have hreturned : ∀ result, t₁.producer.returned ≠ t₀.producer.returned ++ [result] := by
    intro result
    rw [ht₁, Producer.returned_tryPublishBatch hpos hcount]
    simp
  have hreturn : ∀ bs t₂, (publication g.wrapping g t₁).run bs t₁ = some t₂ →
      t₂.producer.pc = .idle →
        (Producer.Accepted g.wrapping count t₀.producer t₂.producer
            ∧ ∃ cs ds t, bs = cs ++ ds ∧ (publication g.wrapping g t₁).run cs t₁ = some t
              ∧ Producer.Admitted t.producer.pc)
          ∨ Producer.Rejected t₀.producer t₂.producer
            ∧ ∃ cs ds t, bs = cs ++ ds ∧ (publication g.wrapping g t₁).run cs t₁ = some t
              ∧ ¬HasRoom g first count t := by
    intro bs t₂ hrun hidle
    have hcourse := (hunder.run hrun).course
    rw [hidle] at hcourse
    rcases hcourse with haccepted | hrejected
    · left
      use haccepted
      apply hunder.exists_decided (hreturned true) hrun haccepted.returned
    · right
      use hrejected
      apply hunder.exists_decided (hreturned false) hrun hrejected.returned
  constructor
  · intro bs t₂ hrun
    constructor
    · apply (hunder.run hrun).hasRoom
    · apply hreturn bs t₂ hrun
  constructor
  · obtain ⟨n, hn, t₂, hrun, hidle⟩ := hunder.exists_return
    use n
    constructor
    · apply le_trans hn
      rw [ht₁]
      apply Producer.remaining_tryPublishBatch hpos hcount
    · use t₂
  · intro n t₂ hrun hidle
    -- the cursors of the consumers stay as they were before the call
    have hroom : ∀ cs ds t, List.replicate n CallAction.resume = cs ++ ds →
        (publication g.wrapping g t₁).run cs t₁ = some t →
          (HasRoom g first count t ↔ HasRoom g first count t₀) := by
      intro cs ds t hcs hcsrun
      obtain ⟨m, rfl⟩ : ∃ m, cs = List.replicate m .resume :=
        ⟨cs.length, (List.append_eq_replicate_iff.mp hcs.symm).2.1⟩
      have hconsumer := consumer_of_solo hcsrun
      rw [ht₁] at hconsumer
      simp only [HasRoom, lag, released, hconsumer]
    constructor
    · intro haccepted
      obtain ⟨cs, ds, t, hcs, hcsrun, hadmitted⟩ :=
        hunder.exists_decided (hreturned true) hrun haccepted.returned
      apply (hroom cs ds t hcs hcsrun).mp
      apply (hunder.run hcsrun).hasRoom hadmitted
    · intro hroom₀
      rcases hreturn _ t₂ hrun hidle with ⟨haccepted, -⟩ | ⟨-, cs, ds, t, hcs, hcsrun, hno⟩
      · apply haccepted
      · cases hno ((hroom cs ds t hcs hcsrun).mpr hroom₀)

/-- A batch of two is published across the wrap, and consumer 1 releases it. Consumer 0 has
released nothing. -/
def lagging : List (Action ℕ) :=
  [.producer (.publish 2 fun index _ => index), .producer (.resume 0), .producer (.resume 0),
    .producer (.resume 0), .consumer 1 (.consume 2), .consumer 1 (.resume 0),
    .consumer 1 (.resume 1), .consumer 1 (.resume 0), .consumer 1 (.resume 0),
    .consumer 1 (.resume 0), .consumer 1 (.resume 0), .consumer 1 (.resume 0)]

/-- Consumer 0 releases one event. -/
def catchingUp : List (Action ℕ) :=
  [.consumer 0 (.consume 1), .consumer 0 (.resume 0), .consumer 0 (.resume 1),
    .consumer 0 (.resume 0), .consumer 0 (.resume 0), .consumer 0 (.resume 0)]

/-- Where a consumer lags behind the whole ring, an event is refused. After the consumer has
released one, it is accepted, from the blocker remembered and over a scan. -/
theorem backpressure_exact_lagging :
  ∃ t₀ t₁ t₂ u₀ u₁ u₂ : State SequenceType ℕ,
    (machine ℕ Geometry.pair.wrapping Geometry.pair (BitVec.allOnes 64)).run lagging
        (init Geometry.pair (BitVec.allOnes 64)) = some t₀
    ∧ t₀.step Geometry.pair.wrapping Geometry.pair (.producer (.publish 1 fun _ _ => 9)) = some t₁
    ∧ (publication Geometry.pair.wrapping Geometry.pair t₁).run [.resume] t₁ = some t₂
    ∧ Producer.Rejected t₀.producer t₂.producer
    ∧ (machine ℕ Geometry.pair.wrapping Geometry.pair (BitVec.allOnes 64)).run catchingUp t₂
        = some u₀
    ∧ u₀.step Geometry.pair.wrapping Geometry.pair (.producer (.publish 1 fun _ _ => 9)) = some u₁
    ∧ (publication Geometry.pair.wrapping Geometry.pair u₁).run
        [.resume, .resume, .resume, .resume, .resume, .resume] u₁ = some u₂
    ∧ Producer.Accepted Geometry.pair.wrapping 1 u₀.producer u₂.producer
  := by
  have hrun : ∃ t₀ t₁ t₂ u₀ u₁ u₂ : State SequenceType ℕ,
      (machine ℕ Geometry.pair.wrapping Geometry.pair (BitVec.allOnes 64)).run lagging
          (init Geometry.pair (BitVec.allOnes 64)) = some t₀
      ∧ t₀.step Geometry.pair.wrapping Geometry.pair (.producer (.publish 1 fun _ _ => 9))
          = some t₁
      ∧ (publication Geometry.pair.wrapping Geometry.pair t₁).run [.resume] t₁ = some t₂
      ∧ t₂.producer.pc = .idle
      ∧ t₀.lag Geometry.pair.wrapping t₀.producer.state.nextToPublish 0 = 2
      ∧ (machine ℕ Geometry.pair.wrapping Geometry.pair (BitVec.allOnes 64)).run catchingUp t₂
          = some u₀
      ∧ u₀.step Geometry.pair.wrapping Geometry.pair (.producer (.publish 1 fun _ _ => 9))
          = some u₁
      ∧ (publication Geometry.pair.wrapping Geometry.pair u₁).run
          [.resume, .resume, .resume, .resume, .resume, .resume] u₁ = some u₂
      ∧ u₂.producer.pc = .idle
      ∧ u₀.lag Geometry.pair.wrapping u₀.producer.state.nextToPublish 0 = 1
      ∧ u₀.lag Geometry.pair.wrapping u₀.producer.state.nextToPublish 1 = 0 := by
    refine ⟨_, _, _, _, _, _, rfl, rfl, rfl, rfl, rfl, rfl, rfl, rfl, rfl, rfl, rfl⟩
  obtain ⟨t₀, t₁, t₂, u₀, u₁, u₂, ht₀, ht₁, ht₂, hrefused, hlag, hu₀, hu₁, hu₂, hidle, hlag₀,
    hlag₁⟩ := hrun
  have hreachable : (machine ℕ Geometry.pair.wrapping Geometry.pair (BitVec.allOnes 64)).Reachable
      t₀ := ⟨lagging, ht₀⟩
  obtain ⟨hcall, -, halone⟩ :=
    backpressure_exact hreachable (by decide) (by decide) (Or.inl rfl) ht₁
  have hrejected : Producer.Rejected t₀.producer t₂.producer := by
    rcases (hcall _ t₂ ht₂).2 hrefused with ⟨haccepted, -⟩ | ⟨hrejected, -⟩
    · have hroom := (halone 1 t₂ ht₂ hrefused).mp haccepted 0 (by decide)
      rw [hlag] at hroom
      cases Nat.le_of_succ_le_succ hroom
    · apply hrejected
  have hreachable₂ : (machine ℕ Geometry.pair.wrapping Geometry.pair (BitVec.allOnes 64)).Reachable
      t₂ := by
    obtain ⟨_, hstep, hlast⟩ := TransitionSystem.run_cons _ |>.mp ht₂
    obtain rfl := Option.some.inj hlast
    apply reachable_of_step (reachable_of_step hreachable ht₁)
      (a := .producer (.resume t₁.currentPlace)) hstep
  obtain ⟨-, -, halone'⟩ :=
    backpressure_exact (hreachable₂.run hu₀) (by decide) (by decide) (Or.inl rfl) hu₁
  have haccepted : Producer.Accepted Geometry.pair.wrapping 1 u₀.producer u₂.producer := by
    apply (halone' 6 u₂ hu₂ hidle).mpr
    intro i hi
    change i < 2 at hi
    obtain rfl | rfl : i = 0 ∨ i = 1 := by omega
    · apply hlag₀.le
    · rw [hlag₁]
      apply Nat.zero_le
  use t₀, t₁, t₂, u₀, u₁, u₂

end Exact

end State

end Disruptor
