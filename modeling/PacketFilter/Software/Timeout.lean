import PacketFilter.Foundation.Monitor
import PacketFilter.Foundation.Transition

/-! # Timeout and the signal handler

The main thread in `Timeout::wait_for`, with `signal_handler` on top of it
whenever a signal is delivered. Each step is one access to a shared object.
-/

namespace PacketFilter.Software.Timeout

inductive WaitStep where
  /-- About to lock the mutex. -/
  | entering
  /-- About to read `terminate` in the predicate of the wait. -/
  | testing
  | releasing
  | waiting
  /-- The duration is over, the mutex is not locked again yet. -/
  | expired
  /-- About to read `terminate` for the last time. -/
  | retesting
  | unlocking
  | returned
  deriving DecidableEq

/-- Where a run of `signal_handler` stands, `force_stop` included. -/
inductive HandlerStep where
  | logging
  | locking
  | storing
  | notifying
  | unlocking
  | returning
  deriving DecidableEq

inductive Signal where
  | sigint
  | sigterm
  deriving DecidableEq

inductive Activity where
  | waitFor (step : WaitStep)
  | handler (signum : Signal) (step : HandlerStep)
  deriving DecidableEq

def Activity.handles (signum : Signal) : Activity → Bool
  | .waitFor _ => false
  | .handler other _ => other = signum

structure State where
  running : Activity
  /-- What the running activity interrupted, the last first. -/
  suspended : List Activity
  /-- `mutex` together with `cv`. -/
  mutex : Monitor Unit
  terminate : Bool

inductive Event where
  | step
  | deliver (signum : Signal)
  /-- A wakeup without a notification. -/
  | wake
  | timeout
  deriving DecidableEq

def start : State where
  running := .waitFor .entering
  suspended := []
  mutex := .idle
  terminate := false

/-- `wait_for`. The wait with a predicate is a loop around a wait without. -/
def waitFor (state : State) : WaitStep → Option State
  | .entering =>
      (state.mutex.lock ()).map fun locked =>
        { state with running := .waitFor .testing, mutex := locked }
  | .testing =>
      some { state with
        running := .waitFor (if state.terminate then .unlocking
          else .releasing) }
  | .releasing =>
      some { state with
        running := .waitFor .waiting
        mutex := state.mutex.wait () }
  | .waiting =>
      (state.mutex.resume ()).map fun resumed =>
        { state with running := .waitFor .testing, mutex := resumed }
  | .expired =>
      (state.mutex.lock ()).map fun locked =>
        { state with running := .waitFor .retesting, mutex := locked }
  | .retesting => some { state with running := .waitFor .unlocking }
  | .unlocking =>
      some { state with
        running := .waitFor .returned
        mutex := state.mutex.unlock }
  | .returned => none

/-- `signal_handler`, which returns to what it interrupted. -/
def signalHandler (state : State) (signum : Signal) :
    HandlerStep → Option State
  | .logging => some { state with running := .handler signum .locking }
  | .locking =>
      (state.mutex.lock ()).map fun locked =>
        { state with running := .handler signum .storing, mutex := locked }
  | .storing =>
      some { state with
        running := .handler signum .notifying
        terminate := true }
  | .notifying =>
      some { state with
        running := .handler signum .unlocking
        mutex := state.mutex.notifyAll }
  | .unlocking =>
      some { state with
        running := .handler signum .returning
        mutex := state.mutex.unlock }
  | .returning =>
      match state.suspended with
      | [] => none
      | interrupted :: rest =>
          some { state with running := interrupted, suspended := rest }

def next (state : State) : Event → Option State
  | .step =>
      match state.running with
      | .waitFor step => waitFor state step
      | .handler signum step => signalHandler state signum step
  | .deliver signum =>
      -- a signal is held back while it is being handled
      if (state.running :: state.suspended).any (Activity.handles signum) then
        none
      else
        some { state with
          running := .handler signum .logging
          suspended := state.running :: state.suspended }
  | .wake =>
      (state.mutex.wake ()).map fun woken => { state with mutex := woken }
  | .timeout =>
      if state.running = .waitFor .waiting then
        some { state with
          running := .waitFor .expired
          mutex := { state.mutex with blocked := fun _ => false } }
      else none

def system : Transition State Event where
  start := start
  next := next

end PacketFilter.Software.Timeout
