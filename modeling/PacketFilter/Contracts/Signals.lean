import PacketFilter.Foundation.Interrupts
import PacketFilter.Software.Timeout

/-! # Stopping by signal

A signal handler that needs the mutex of the thread it interrupts waits for
itself when that thread holds it.
-/

namespace PacketFilter.Contracts.Signals

open Software.Timeout Interrupts

/-- The handler waits for the mutex, and what it interrupted holds it. -/
def SelfDeadlocked (state : State) : Prop :=
  (∃ signum, state.running = .handler signum .locking) ∧
    state.mutex.owner ≠ none

/-- A signal is delivered while the mutex is free. -/
def Orderly (state : State) : Event → Prop
  | .deliver _ => state.mutex.owner = none
  | .step | .wake | .timeout => True

/-! ## Who holds the mutex -/

def Holds : Activity → Prop
  | .waitFor step =>
      step = .testing ∨ step = .releasing ∨ step = .retesting ∨
        step = .unlocking
  | .handler _ step => step = .storing ∨ step = .notifying ∨ step = .unlocking

def Invariant (state : State) : Prop :=
  HeldByRunning Holds (state.mutex.owner ≠ none) state.running state.suspended

theorem invariant_start : Invariant start where
  held_iff := by simp [start, Monitor.idle, Holds]
  suspended_free _ member := by cases member

theorem Invariant.not_deadlocked {state : State} (invariant : Invariant state) :
    ¬ SelfDeadlocked state := by
  intro deadlocked
  rcases deadlocked with ⟨⟨signum, running⟩, held⟩
  have holds := invariant.held_iff.mp held
  rw [running] at holds
  simp [Holds] at holds

/-! ## What a step does to the mutex -/

theorem invariant_waitFor {state after : State} {step : WaitStep}
    (invariant : Invariant state) (running : state.running = .waitFor step)
    (enabled : waitFor state step = some after) : Invariant after := by
  have owned := invariant.held_iff
  rw [running] at owned
  cases step with
  | entering =>
      rcases Option.map_eq_some_iff.mp enabled with ⟨locked, isLocked, rfl⟩
      rcases Monitor.lock_eq_some_iff.mp isLocked with ⟨-, rfl⟩
      exact invariant.advance (by simp [Holds])
  | testing =>
      rcases Option.some.inj enabled with rfl
      apply invariant.advance
      rw [owned]
      split <;> simp [Holds]
  | releasing =>
      rcases Option.some.inj enabled with rfl
      exact invariant.advance (by simp [Holds, Monitor.wait])
  | waiting =>
      rcases Option.map_eq_some_iff.mp enabled with ⟨resumed, isResumed, rfl⟩
      rcases Monitor.resume_eq_some_iff.mp isResumed with ⟨-, -, rfl⟩
      exact invariant.advance (by simp [Holds])
  | expired =>
      rcases Option.map_eq_some_iff.mp enabled with ⟨locked, isLocked, rfl⟩
      rcases Monitor.lock_eq_some_iff.mp isLocked with ⟨-, rfl⟩
      exact invariant.advance (by simp [Holds])
  | retesting =>
      rcases Option.some.inj enabled with rfl
      exact invariant.advance (by rw [owned]; simp [Holds])
  | unlocking =>
      rcases Option.some.inj enabled with rfl
      exact invariant.advance (by simp [Holds, Monitor.unlock])
  | returned => cases enabled

theorem invariant_signalHandler {state after : State} {signum : Signal}
    {step : HandlerStep} (invariant : Invariant state)
    (running : state.running = .handler signum step)
    (enabled : signalHandler state signum step = some after) :
    Invariant after := by
  have owned := invariant.held_iff
  rw [running] at owned
  cases step with
  | logging =>
      rcases Option.some.inj enabled with rfl
      exact invariant.advance (by rw [owned]; simp [Holds])
  | locking =>
      rcases Option.map_eq_some_iff.mp enabled with ⟨locked, isLocked, rfl⟩
      rcases Monitor.lock_eq_some_iff.mp isLocked with ⟨-, rfl⟩
      exact invariant.advance (by simp [Holds])
  | storing =>
      rcases Option.some.inj enabled with rfl
      exact invariant.advance (by rw [owned]; simp [Holds])
  | notifying =>
      rcases Option.some.inj enabled with rfl
      exact invariant.advance (by
        change state.mutex.owner ≠ none ↔ _
        rw [owned]
        simp [Holds])
  | unlocking =>
      rcases Option.some.inj enabled with rfl
      exact invariant.advance (by simp [Holds, Monitor.unlock])
  | returning =>
      rcases state with ⟨current, suspended, mutex, terminate⟩
      cases suspended with
      | nil => cases enabled
      | cons interrupted rest =>
          rcases Option.some.inj enabled with rfl
          apply HeldByRunning.resume invariant
          rw [running]
          simp [Holds]

theorem invariant_next {state after : State} {event : Event}
    (invariant : Invariant state) (orderly : Orderly state event)
    (enabled : next state event = some after) : Invariant after := by
  cases event with
  | step =>
      rw [next] at enabled
      split at enabled
      · next step running =>
          exact invariant_waitFor invariant running enabled
      · next signum step running =>
          exact invariant_signalHandler invariant running enabled
  | deliver signum =>
      rw [next] at enabled
      split at enabled
      · cases enabled
      · rcases Option.some.inj enabled with rfl
        exact invariant.interrupt (not_not.mpr orderly) (by simp [Holds])
  | wake =>
      rcases Option.map_eq_some_iff.mp enabled with ⟨woken, isWoken, rfl⟩
      rcases Monitor.wake_eq_some_iff.mp isWoken with ⟨-, rfl⟩
      exact invariant
  | timeout =>
      rw [next] at enabled
      split at enabled
      · next running =>
          rcases Option.some.inj enabled with rfl
          apply invariant.advance
          rw [invariant.held_iff, running]
          simp [Holds]
      · cases enabled

theorem invariant_of_reached {state : State}
    (reached : system.Reached Orderly state) : Invariant state :=
  reached.invariant Invariant invariant_start
    fun _ _ _ invariant orderly enabled =>
      invariant_next invariant orderly enabled

/-! ## Any other signal -/

theorem deadlocks_of_disorderly {state after : State} {event : Event}
    (disorderly : ¬ Orderly state event)
    (enabled : next state event = some after) :
    ∃ final, system.Leads Orderly after final ∧ SelfDeadlocked final := by
  cases event with
  | step => exact absurd trivial disorderly
  | deliver signum =>
      rw [next] at enabled
      split at enabled
      · cases enabled
      · rcases Option.some.inj enabled with rfl
        exact ⟨_, .next .step trivial rfl .refl, ⟨signum, rfl⟩, disorderly⟩
  | wake => exact absurd trivial disorderly
  | timeout => exact absurd trivial disorderly

/-! ## Stopping -/

theorem leads_handled (signum : Signal) {state : State}
    (free : state.mutex.owner = none)
    (fresh : (state.running :: state.suspended).any
      (Activity.handles signum) = false) :
    system.Leads Orderly state
      { state with mutex := ⟨none, fun _ => false⟩, terminate := true } := by
  have delivered : next state (.deliver signum) = some { state with
      running := .handler signum .logging
      suspended := state.running :: state.suspended } := by
    rw [next, if_neg (Bool.eq_false_iff.mp fresh)]
  refine .next (.deliver signum) free delivered ?_
  rcases state with ⟨running, suspended, ⟨owner, blocked⟩, terminate⟩
  rcases (show owner = none from free) with rfl
  apply Transition.Leads.next .step trivial rfl
  apply Transition.Leads.next .step trivial rfl
  apply Transition.Leads.next .step trivial rfl
  apply Transition.Leads.next .step trivial rfl
  apply Transition.Leads.next .step trivial rfl
  apply Transition.Leads.next .step trivial rfl
  exact .refl

theorem leads_returned (suspended : List Activity) :
    system.Leads Orderly ⟨.waitFor .waiting, suspended, .idle, true⟩
      ⟨.waitFor .returned, suspended, .idle, true⟩ := by
  apply Transition.Leads.next .step trivial rfl
  apply Transition.Leads.next .step trivial rfl
  apply Transition.Leads.next .step trivial rfl
  exact .refl

theorem leads_waiting :
    system.Leads Orderly start
      ⟨.waitFor .waiting, [], Monitor.idle.wait (), false⟩ := by
  apply Transition.Leads.next .step trivial rfl
  apply Transition.Leads.next .step trivial rfl
  apply Transition.Leads.next .step trivial rfl
  exact .refl

/-- No run whose signals come while the mutex is free reaches a deadlock, and
any other signal leads to one. -/
theorem signals_orderly (state : State) :
    (system.Reached Orderly state → ¬ SelfDeadlocked state) ∧
      ∀ event after, ¬ Orderly state event → next state event = some after →
        ∃ final, system.Leads Orderly after final ∧ SelfDeadlocked final := by
  constructor
  · intro reached
    exact (invariant_of_reached reached).not_deadlocked
  · intro event after disorderly enabled
    exact deadlocks_of_disorderly disorderly enabled

/-- A signal that comes during the long wait, and ends it. -/
theorem signals_orderly_sample :
    ∃ state : State, state.running = .waitFor .returned ∧
      state.terminate = true ∧ ¬ SelfDeadlocked state := by
  have handled : system.Leads Orderly
      ⟨.waitFor .waiting, [], Monitor.idle.wait (), false⟩
      ⟨.waitFor .waiting, [], .idle, true⟩ :=
    leads_handled .sigint rfl rfl
  have reached : system.Reached Orderly
      ⟨.waitFor .returned, [], .idle, true⟩ :=
    leads_waiting.trans (handled.trans (leads_returned []))
  exact ⟨_, rfl, rfl, (signals_orderly _).1 reached⟩

/-- A signal that comes right after `wait_for` has locked the mutex. -/
theorem not_signals_safe :
    ¬ ∀ state, system.Reachable state → ¬ SelfDeadlocked state := by
  intro safe
  have runs : ∃ state, system.run start [.step, .deliver .sigint, .step] =
      some state ∧ SelfDeadlocked state :=
    ⟨_, rfl, ⟨.sigint, rfl⟩, nofun⟩
  rcases runs with ⟨state, run, deadlocked⟩
  exact safe state (Transition.leads_of_run (fun _ _ _ => trivial) run)
    deadlocked

end PacketFilter.Contracts.Signals
