import PacketFilter.Software.Construction

/-! # Construction contract

The constructor may return once `thread_infos_` is filled, and it must not be
left waiting for a notification that has already been given. Both hold as long
as the notification comes after the constructor has blocked and nothing wakes
it before the vector is filled, and either fails as soon as that does not hold.
-/

namespace PacketFilter.Contracts.Construction

open Software Software.Construction

variable {Callback : Type} {steps : List (FillStep Callback)}

structure Safe (steps : List (FillStep Callback)) (state : State Callback) :
    Prop where
  filled : state.phase = .returned →
    state.fill = [] ∧ state.threadInfos = steps.foldl FillStep.apply []
  not_lost : ¬ (state.notified = true ∧ state.initMutex.blocked () = true)

/-- The notification finds the constructor at its wait or behind it, and a
wakeup without a notification comes after the vector is filled. -/
def Orderly (state : State Callback) : Event → Prop
  | .construct => True
  | .init => state.fill = [] → state.phase ≠ .spawned ∧ state.phase ≠ .locked
  | .fail => True
  | .wake => state.fill = []

/-! ## What holds in every phase -/

/-- The constructor's side of the handshake: in the phases before the wait
nothing has been notified, and once it is awake there is nothing left to fill. -/
def Ordered (state : State Callback) : Prop :=
  match state.phase with
  | .entered | .spawned | .locked =>
      state.initMutex.blocked () = false ∧ state.notified = false
  | .waiting =>
      (state.initMutex.blocked () = true ∧ state.notified = false) ∨
        (state.initMutex.blocked () = false ∧ state.fill = [])
  | .woken | .returned =>
      state.initMutex.blocked () = false ∧ state.fill = []

def Free (state : State Callback) : Prop :=
  state.phase = .entered ∨ state.phase = .spawned ∨ state.phase = .waiting →
    state.initMutex.owner = none

structure Invariant (steps : List (FillStep Callback))
    (state : State Callback) : Prop where
  progress : state.fill.foldl FillStep.apply state.threadInfos =
    steps.foldl FillStep.apply []
  free : Free state
  ordered : Ordered state

theorem Invariant.waiting_of_blocked {state : State Callback}
    (invariant : Invariant steps state)
    (blocked : state.initMutex.blocked () = true) : state.phase = .waiting := by
  have ordered := invariant.ordered
  rw [Ordered, blocked] at ordered
  cases phase : state.phase <;> rw [phase] at ordered
  all_goals first | rfl | cases ordered.1

theorem Invariant.safe {state : State Callback}
    (invariant : Invariant steps state) : Safe steps state := by
  have ordered := invariant.ordered
  constructor
  · intro returned
    rw [Ordered, returned] at ordered
    have progress := invariant.progress
    rw [ordered.2] at progress
    exact ⟨ordered.2, progress⟩
  · intro lost
    have waiting := invariant.waiting_of_blocked lost.2
    rw [Ordered, waiting, lost.1, lost.2] at ordered
    rcases ordered with asleep | filled
    · cases asleep.2
    · cases filled.1

theorem invariant_start : Invariant steps (start steps) where
  progress := rfl
  free _ := rfl
  ordered := ⟨rfl, rfl⟩

theorem invariant_construct {state after : State Callback}
    (invariant : Invariant steps state) (enabled : construct state = some after) :
    Invariant steps after := by
  rcases invariant with ⟨progress, free, ordered⟩
  rw [Ordered] at ordered
  rw [construct] at enabled
  cases phase : state.phase with
  | entered =>
      rw [phase] at enabled ordered
      rcases Option.some.inj enabled with rfl
      exact ⟨progress, fun _ => free (.inl phase), ordered⟩
  | spawned =>
      rw [phase] at enabled ordered
      rcases Option.map_eq_some_iff.mp enabled with ⟨locked, isLocked, rfl⟩
      rcases (Monitor.lock_eq_some_iff.mp isLocked).2 with rfl
      exact ⟨progress, by simp [Free], ordered⟩
  | locked =>
      rw [phase] at enabled ordered
      rcases Option.some.inj enabled with rfl
      exact ⟨progress, fun _ => rfl,
        .inl ⟨Monitor.blocked_wait _ _, ordered.2⟩⟩
  | waiting =>
      rw [phase] at enabled ordered
      rcases Option.map_eq_some_iff.mp enabled with ⟨resumed, isResumed, rfl⟩
      rcases Monitor.resume_eq_some_iff.mp isResumed with ⟨awake, -, rfl⟩
      refine ⟨progress, by simp [Free], awake, ?_⟩
      rcases ordered with asleep | filled
      · rw [awake] at asleep
        cases asleep.1
      · exact filled.2
  | woken =>
      rw [phase] at enabled ordered
      rcases Option.some.inj enabled with rfl
      exact ⟨progress, by simp [Free], ordered⟩
  | returned =>
      rw [phase] at enabled
      cases enabled

theorem invariant_init {state after : State Callback}
    (invariant : Invariant steps state) (orderly : Orderly state .init)
    (enabled : init state = some after) : Invariant steps after := by
  rcases invariant with ⟨progress, free, ordered⟩
  rw [Ordered] at ordered
  rcases init_eq_some enabled with
    ⟨begun, ⟨step, rest, left, rfl⟩ | ⟨left, -, rfl⟩⟩
  · rw [left] at progress ordered
    refine ⟨progress, free, ?_⟩
    rw [Ordered]
    dsimp only
    -- nobody is past the wait while there is something left to fill
    split at ordered
    · exact ordered
    · exact ordered
    · exact ordered
    · rcases ordered with asleep | filled
      · exact .inl asleep
      · cases filled.2
    · cases ordered.2
    · cases ordered.2
  · refine ⟨progress, free, ?_⟩
    have late := orderly left
    rw [Ordered]
    dsimp only
    split
    · next phase => exact absurd phase begun
    · next phase => exact absurd phase late.1
    · next phase => exact absurd phase late.2
    · exact .inr ⟨Monitor.blocked_notifyAll _ _, left⟩
    · exact ⟨Monitor.blocked_notifyAll _ _, left⟩
    · exact ⟨Monitor.blocked_notifyAll _ _, left⟩

theorem invariant_wake {state after : State Callback}
    (invariant : Invariant steps state) (orderly : Orderly state .wake)
    (enabled : (state.initMutex.wake ()).map
      (fun woken => { state with initMutex := woken }) = some after) :
    Invariant steps after := by
  rcases Option.map_eq_some_iff.mp enabled with ⟨woken, isWoken, rfl⟩
  rcases Monitor.wake_eq_some_iff.mp isWoken with ⟨blocked, rfl⟩
  have waiting := invariant.waiting_of_blocked blocked
  refine ⟨invariant.progress, invariant.free, ?_⟩
  rw [Ordered]
  dsimp only
  rw [waiting]
  exact .inr ⟨Function.update_self _ _ _, orderly⟩

theorem invariant_next {state after : State Callback} {event : Event}
    (invariant : Invariant steps state) (orderly : Orderly state event)
    (enabled : next state event = some after) : Invariant steps after := by
  rw [next.eq_def] at enabled
  split at enabled
  · cases enabled
  · cases event with
    | construct => exact invariant_construct invariant enabled
    | init => exact invariant_init invariant orderly enabled
    | fail =>
        dsimp only at enabled
        split at enabled
        · cases enabled
        · rcases Option.some.inj enabled with rfl
          exact ⟨invariant.progress, invariant.free, invariant.ordered⟩
    | wake => exact invariant_wake invariant orderly enabled

theorem invariant_of_reached {state : State Callback}
    (reached : (construction steps).Reached Orderly state) :
    Invariant steps state :=
  reached.invariant (Invariant steps) invariant_start
    fun _ _ _ invariant orderly enabled =>
      invariant_next invariant orderly enabled

/-! ## What goes wrong otherwise -/

/-- The constructor gets from `state` to an unsafe state without any further
step out of order. -/
def GoesWrong (steps : List (FillStep Callback)) (state : State Callback) :
    Prop :=
  ∃ final, (construction steps).Leads Orderly state final ∧
    ¬ Safe steps final

theorem goesWrong_of_construct {state after : State Callback}
    (running : state.aborted = false) (enabled : construct state = some after)
    (wrong : GoesWrong steps after) : GoesWrong steps state := by
  rcases wrong with ⟨final, leads, notSafe⟩
  have stepped : (construction steps).next state .construct = some after := by
    change next state .construct = some after
    rw [next.eq_def, running]
    exact enabled
  exact ⟨final, .next .construct trivial stepped leads, notSafe⟩

theorem goesWrong_of_locked {state : State Callback}
    (running : state.aborted = false) (phase : state.phase = .locked)
    (notified : state.notified = true) : GoesWrong steps state := by
  have enabled : construct state = some { state with
      phase := .waiting
      initMutex := state.initMutex.wait () } := by
    rw [construct, phase]
  refine goesWrong_of_construct running enabled ⟨_, .refl, ?_⟩
  intro safe
  exact safe.not_lost ⟨notified, Monitor.blocked_wait _ _⟩

theorem goesWrong_of_spawned {state : State Callback}
    (running : state.aborted = false) (phase : state.phase = .spawned)
    (free : state.initMutex.owner = none) (notified : state.notified = true) :
    GoesWrong steps state := by
  have enabled : construct state = some { state with
      phase := .locked
      initMutex := ⟨some (), state.initMutex.blocked⟩ } := by
    rw [construct, phase]
    exact Option.map_eq_some_iff.mpr
      ⟨_, Monitor.lock_eq_some_iff.mpr ⟨free, rfl⟩, rfl⟩
  refine goesWrong_of_construct running enabled ?_
  exact goesWrong_of_locked running rfl notified

theorem goesWrong_of_awake {state : State Callback}
    (running : state.aborted = false) (phase : state.phase = .waiting)
    (free : state.initMutex.owner = none)
    (awake : state.initMutex.blocked () = false) (unfilled : state.fill ≠ []) :
    GoesWrong steps state := by
  have resumes : construct state = some { state with
      phase := .woken
      initMutex := ⟨some (), state.initMutex.blocked⟩ } := by
    rw [construct, phase]
    exact Option.map_eq_some_iff.mpr
      ⟨_, Monitor.resume_eq_some_iff.mpr ⟨awake, free, rfl⟩, rfl⟩
  refine goesWrong_of_construct running resumes
    (goesWrong_of_construct running rfl ⟨_, .refl, ?_⟩)
  intro safe
  exact unfilled (safe.filled rfl).1

theorem goesWrong_of_disorderly {state after : State Callback} {event : Event}
    (invariant : Invariant steps state) (disorderly : ¬ Orderly state event)
    (enabled : next state event = some after) : GoesWrong steps after := by
  rw [next.eq_def] at enabled
  split at enabled
  · cases enabled
  · next running =>
      have running : state.aborted = false := Bool.eq_false_iff.mpr running
      cases event with
      | construct => exact absurd trivial disorderly
      | init =>
          rw [Orderly, Classical.not_imp] at disorderly
          rcases disorderly with ⟨filled, early⟩
          rcases init_eq_some enabled with
            ⟨-, ⟨step, rest, left, -⟩ | ⟨-, -, rfl⟩⟩
          · rw [filled] at left
            cases left
          · by_cases phase : state.phase = .spawned
            · exact goesWrong_of_spawned running phase
                (invariant.free (.inr (.inl phase))) rfl
            · have phase : state.phase = .locked := by
                by_contra other
                exact early ⟨phase, other⟩
              exact goesWrong_of_locked running phase rfl
      | fail => exact absurd trivial disorderly
      | wake =>
          rcases Option.map_eq_some_iff.mp enabled with ⟨woken, isWoken, rfl⟩
          rcases Monitor.wake_eq_some_iff.mp isWoken with ⟨blocked, rfl⟩
          have waiting := invariant.waiting_of_blocked blocked
          have awake : Function.update state.initMutex.blocked () false () =
              false := Function.update_self _ _ _
          exact goesWrong_of_awake running waiting
            (invariant.free (.inr (.inr waiting))) awake disorderly

/-- The handshake is safe in every run that keeps the order, and any enabled
event that breaks the order leads to a state that is not safe. -/
theorem construction_orderly (steps : List (FillStep Callback)) :
    (∀ state, (construction steps).Reached Orderly state → Safe steps state) ∧
      ∀ state event after, (construction steps).Reached Orderly state →
        ¬ Orderly state event → next state event = some after →
        GoesWrong steps after := by
  refine ⟨?_, ?_⟩
  · intro state reached
    exact (invariant_of_reached reached).safe
  · intro state event after reached disorderly enabled
    exact goesWrong_of_disorderly (invariant_of_reached reached) disorderly
      enabled

/-- The order of a start-up with one thread that is safe: the constructor
blocks, the vector is filled, and only then comes the notification. -/
theorem construction_orderly_sample :
    ∃ state : State Unit, state.phase = .returned ∧
      Safe (fillSteps 1 1) state := by
  have reached : (construction (fillSteps 1 1)).Reached Orderly
      (⟨.returned, .idle, [], [some (threadInfoAt 1 0)], true, false⟩ :
        State Unit) := by
    apply Transition.Leads.next .construct trivial rfl
    apply Transition.Leads.next .construct trivial rfl
    apply Transition.Leads.next .construct trivial rfl
    apply Transition.Leads.next .init nofun rfl
    apply Transition.Leads.next .init nofun rfl
    apply Transition.Leads.next .init (fun _ => ⟨nofun, nofun⟩) rfl
    apply Transition.Leads.next .construct trivial rfl
    apply Transition.Leads.next .construct trivial rfl
    exact .refl
  exact ⟨_, rfl, (construction_orderly _).1 _ reached⟩

/-- A thread of `init_dpdk` that is done before the constructor locks the mutex
notifies nobody, and the constructor waits for good. -/
theorem not_construction_safe :
    ¬ ∀ (steps : List (FillStep Unit)) (state : State Unit),
      (construction steps).Reachable state → Safe steps state := by
  intro safe
  have runs : ∃ state : State Unit,
      (construction (fillSteps 1 1)).run (start (fillSteps 1 1))
        [.construct, .init, .init, .init, .construct, .construct] = some state ∧
      state.notified = true ∧ state.initMutex.blocked () = true :=
    ⟨_, rfl, rfl, rfl⟩
  rcases runs with ⟨state, run, lost⟩
  have reachable : (construction (fillSteps 1 1)).Reachable state :=
    Transition.leads_of_run (fun _ _ _ => trivial) run
  exact (safe _ state reachable).not_lost lost

/-- What the constructor hands over when `init_dpdk` got all the threads it
rounded the request up to. -/
theorem threadInfos_of_returned {numThreads portNum : Nat}
    (divides : portNum ∣ numThreads) (inRange : numThreads < 2 ^ 16)
    {state : State Callback}
    (reached : (construction (fillSteps numThreads portNum)).Reached Orderly
      state)
    (returned : state.phase = .returned) :
    state.threadInfos = (List.range numThreads).map fun i =>
      some (threadInfoAt (numThreads / portNum) i) := by
  rw [((invariant_of_reached reached).safe.filled returned).2]
  exact foldl_fillSteps divides inRange

end PacketFilter.Contracts.Construction
