import PacketFilter.Foundation.Monitor
import PacketFilter.Foundation.Transition
import PacketFilter.Software.Dpdk

/-! # DPDK construction

The constructor `DPDK::DPDK` and the thread it spawns for `init_dpdk`, up to
the notification on `init_cv_`. The steps of the two alternate in any order,
and the standard allows the wait to end without a notification.
-/

namespace PacketFilter.Software.Construction

variable {Callback : Type}

inductive Phase where
  | entered
  | spawned
  | locked
  | waiting
  | woken
  | returned
  deriving DecidableEq

structure State (Callback : Type) where
  phase : Phase
  initMutex : Monitor Unit
  /-- What `init_dpdk` still has to do to `thread_infos_`. -/
  fill : List (FillStep Callback)
  threadInfos : ThreadInfos Callback
  notified : Bool
  aborted : Bool

inductive Event where
  | construct
  | init
  /-- A failed call in the thread of `init_dpdk`, which ends the program. -/
  | fail
  /-- A wakeup without a notification. -/
  | wake
  deriving DecidableEq

def start (steps : List (FillStep Callback)) : State Callback where
  phase := .entered
  initMutex := .idle
  fill := steps
  threadInfos := []
  notified := false
  aborted := false

/-- The constructor: it spawns `main_thread_`, locks `init_mutex_`, waits on
`init_cv_` without a predicate, and unlocks when it returns. -/
def construct (state : State Callback) : Option (State Callback) :=
  match state.phase with
  | .entered => some { state with phase := .spawned }
  | .spawned =>
      (state.initMutex.lock ()).map fun locked =>
        { state with phase := .locked, initMutex := locked }
  | .locked =>
      some { state with
        phase := .waiting
        initMutex := state.initMutex.wait () }
  | .waiting =>
      (state.initMutex.resume ()).map fun resumed =>
        { state with phase := .woken, initMutex := resumed }
  | .woken =>
      some { state with
        phase := .returned
        initMutex := state.initMutex.unlock }
  | .returned => none

/-- The thread of `init_dpdk`: it fills `thread_infos_` and notifies, holding
no mutex. -/
def init (state : State Callback) : Option (State Callback) :=
  if state.phase = .entered then none
  else
    match state.fill with
    | step :: rest =>
        some { state with
          fill := rest
          threadInfos := step.apply state.threadInfos }
    | [] =>
        if state.notified then none
        else
          some { state with
            notified := true
            initMutex := state.initMutex.notifyAll }

theorem init_eq_some {state after : State Callback}
    (enabled : init state = some after) :
    state.phase ≠ .entered ∧
      ((∃ step rest, state.fill = step :: rest ∧
          after = { state with
            fill := rest
            threadInfos := step.apply state.threadInfos }) ∨
        (state.fill = [] ∧ state.notified = false ∧
          after = { state with
            notified := true
            initMutex := state.initMutex.notifyAll })) := by
  rw [init] at enabled
  split at enabled
  · cases enabled
  · next begun =>
      refine ⟨begun, ?_⟩
      split at enabled
      · next step rest left =>
          exact .inl ⟨step, rest, left, (Option.some.inj enabled).symm⟩
      · next left =>
          split at enabled
          · cases enabled
          · next unnotified =>
              exact .inr ⟨left, Bool.eq_false_iff.mpr unnotified,
                (Option.some.inj enabled).symm⟩

def next (state : State Callback) (event : Event) : Option (State Callback) :=
  if state.aborted then none
  else
    match event with
    | .construct => construct state
    | .init => init state
    | .fail =>
        if state.phase = .entered then none
        else some { state with aborted := true }
    | .wake =>
        (state.initMutex.wake ()).map fun woken =>
          { state with initMutex := woken }

def construction (steps : List (FillStep Callback)) :
    Transition (State Callback) Event where
  start := start steps
  next := next

end PacketFilter.Software.Construction
