import Mathlib.Data.Fintype.Basic
import PacketFilter.Foundation.Monitor
import PacketFilter.Foundation.Transition

/-! # Receive threads, their callbacks and shutdown

`dpdk_rx_loop` on every receive thread, the calls of `register_callback`,
`trigger_shutdown` and the destructor, as steps that alternate in any order.
Each step is one access to a shared object.
-/

namespace PacketFilter.Software.Callbacks

variable {Callback : Type}

inductive Receiver where
  | launched
  /-- About to read `force_quit_` in the predicate of the wait. -/
  | testQuit
  /-- About to read `rx_callback` in the predicate of the wait. -/
  | testCallback
  | blocking
  | blocked
  /-- The predicate holds, the mutex is still locked. -/
  | leaving
  /-- About to read `force_quit_` in the condition of the loop. -/
  | polling
  | receiving
  /-- In the loop over the packets of a burst, with so many packets left. -/
  | processing (left : Nat)
  /-- The call of an empty function has thrown. -/
  | thrown
  | finished
  deriving DecidableEq

inductive Registrar where
  | called
  | stored
  | locked
  | notified
  | returned
  deriving DecidableEq

inductive Party (calls : Nat) where
  | receiver
  | registrar (call : Fin calls)
  deriving DecidableEq

/-- What a receive thread and the calls that register its callback share, and
where each of them stands. -/
structure Handshake (Callback : Type) (calls : Nat) where
  rxCallback : Option Callback
  /-- `callback_mutex` together with `callback_cv`. -/
  callbackMutex : Monitor (Party calls)
  receiver : Receiver
  registrar : Fin calls → Registrar
  /-- Whether `callback_cv` was notified after `force_quit_` was set. -/
  notifiedSinceQuit : Bool

/-! ## One receive thread -/

namespace Handshake

variable {calls : Nat}

/-- `DPDK_BURST_SIZE`. -/
def burstSize : Nat := 32

inductive Event (calls : Nat) where
  /-- A step of the receive thread; `burst` is the number of packets that
  `rte_eth_rx_burst` returns if this is what the step calls. -/
  | receive (burst : Fin (burstSize + 1))
  /-- A wakeup without a notification. -/
  | wake
  | register (call : Fin calls)
  deriving DecidableEq

def start : Handshake Callback calls where
  rxCallback := none
  callbackMutex := .idle
  receiver := .launched
  registrar _ := .called
  notifiedSinceQuit := false

/-- `dpdk_rx_loop`. -/
def receive (forceQuit : Bool) (burst : Fin (burstSize + 1))
    (handshake : Handshake Callback calls) :
    Option (Handshake Callback calls) :=
  match handshake.receiver with
  | .launched =>
      (handshake.callbackMutex.lock .receiver).map fun locked =>
        { handshake with receiver := .testQuit, callbackMutex := locked }
  | .testQuit =>
      some { handshake with
        receiver := if forceQuit then .leaving else .testCallback }
  | .testCallback =>
      some { handshake with
        receiver := if handshake.rxCallback.isSome then .leaving
          else .blocking }
  | .blocking =>
      some { handshake with
        receiver := .blocked
        callbackMutex := handshake.callbackMutex.wait .receiver }
  | .blocked =>
      (handshake.callbackMutex.resume .receiver).map fun resumed =>
        { handshake with receiver := .testQuit, callbackMutex := resumed }
  | .leaving =>
      some { handshake with
        receiver := .polling
        callbackMutex := handshake.callbackMutex.unlock }
  | .polling =>
      some { handshake with
        receiver := if forceQuit then .finished else .receiving }
  | .receiving =>
      some { handshake with
        receiver := if burst.val = 0 then .polling
          else .processing burst.val }
  | .processing 0 => some { handshake with receiver := .polling }
  | .processing (left + 1) =>
      match handshake.rxCallback with
      | none => some { handshake with receiver := .thrown }
      | some _ => some { handshake with receiver := .processing left }
  | .thrown => none
  | .finished => none

/-- `register_callback`, for a thread number that passes its assertion. The
callback is stored before the mutex is locked. -/
def register (forceQuit : Bool) (rxCallback : Callback) (call : Fin calls)
    (handshake : Handshake Callback calls) :
    Option (Handshake Callback calls) :=
  match handshake.registrar call with
  | .called =>
      some { handshake with
        rxCallback := some rxCallback
        registrar := Function.update handshake.registrar call .stored }
  | .stored =>
      (handshake.callbackMutex.lock (.registrar call)).map fun locked =>
        { handshake with
          callbackMutex := locked
          registrar := Function.update handshake.registrar call .locked }
  | .locked =>
      some { handshake with
        callbackMutex := handshake.callbackMutex.notifyAll
        registrar := Function.update handshake.registrar call .notified
        notifiedSinceQuit := handshake.notifiedSinceQuit || forceQuit }
  | .notified =>
      some { handshake with
        callbackMutex := handshake.callbackMutex.unlock
        registrar := Function.update handshake.registrar call .returned }
  | .returned => none

def next (forceQuit : Bool) (request : Fin calls → Callback)
    (handshake : Handshake Callback calls) :
    Event calls → Option (Handshake Callback calls)
  | .receive burst => handshake.receive forceQuit burst
  | .wake =>
      (handshake.callbackMutex.wake .receiver).map fun woken =>
        { handshake with callbackMutex := woken }
  | .register call => handshake.register forceQuit (request call) call

/-- One receive thread while `force_quit_` stays the same. -/
def transition (forceQuit : Bool) (request : Fin calls → Callback) :
    Transition (Handshake Callback calls) (Event calls) where
  start := start
  next := next forceQuit request

end Handshake

/-! ## All receive threads -/

inductive Destructor where
  | notCalled
  | triggering
  /-- In `shutdown`, waiting for the receive threads. -/
  | joining
  | joined
  deriving DecidableEq

variable {threads : Nat} {calls : Fin threads → Nat}

/-- `calls` is how often `register_callback` is called for each thread. -/
structure State (Callback : Type) (calls : Fin threads → Nat) where
  forceQuit : Bool
  handshake : (thread : Fin threads) → Handshake Callback (calls thread)
  destructor : Destructor

inductive Event (calls : Fin threads → Nat) where
  | step (thread : Fin threads) (event : Handshake.Event (calls thread))
  | triggerShutdown
  | destroy
  deriving DecidableEq

def start : State Callback calls where
  forceQuit := false
  handshake _ := .start
  destructor := .notCalled

def State.set (state : State Callback calls) (thread : Fin threads)
    (handshake : Handshake Callback (calls thread)) : State Callback calls :=
  { state with handshake := Function.update state.handshake thread handshake }

/-- `DPDK::~DPDK`, which is called after every call of `register_callback` has
returned, and `shutdown` up to the end of the receive threads. -/
def destroy (state : State Callback calls) : Option (State Callback calls) :=
  match state.destructor with
  | .notCalled =>
      if ∀ thread call, (state.handshake thread).registrar call = .returned then
        some { state with
          destructor := if state.forceQuit then .joining else .triggering }
      else none
  | .triggering =>
      some { state with forceQuit := true, destructor := .joining }
  | .joining =>
      if ∀ thread, (state.handshake thread).receiver = .finished then
        some { state with destructor := .joined }
      else none
  | .joined => none

def next (request : (thread : Fin threads) → Fin (calls thread) → Callback)
    (state : State Callback calls) : Event calls → Option (State Callback calls)
  | .step thread event =>
      ((state.handshake thread).next state.forceQuit (request thread) event).map
        (state.set thread)
  | .triggerShutdown => some { state with forceQuit := true }
  | .destroy => destroy state

def callbacks
    (request : (thread : Fin threads) → Fin (calls thread) → Callback) :
    Transition (State Callback calls) (Event calls) where
  start := start
  next := next request

end PacketFilter.Software.Callbacks
