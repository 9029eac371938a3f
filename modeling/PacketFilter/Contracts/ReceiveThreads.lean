import PacketFilter.Contracts.Callbacks
import PacketFilter.Contracts.ReceiveBuffers

/-! # Receive threads at work

The receive threads run while their callbacks are registered and until the
destructor has joined them. What each of them receives and calls is what
`dpdk_rx_loop` does with its buffers one access after the other.
-/

namespace PacketFilter.Contracts.ReceiveThreads

open Software Software.Callbacks Contracts.Callbacks ReceiveBuffers

variable {Callback : Type}

/-! ## What a thread does -/

inductive Act (Callback : Type) where
  | receive (size : Nat)
  | call (rxCallback : Callback)
  | quit
  deriving DecidableEq

namespace Act

def anonymous : Act Callback → Act Unit
  | receive size => .receive size
  | call _ => .call ()
  | quit => .quit

def called : Act Callback → Option Callback
  | call rxCallback => some rxCallback
  | _ => none

/-- What the thread gets to know when it polls: the size of a burst, or that it
has to quit. -/
def reading : Act Callback → Option (Option Nat)
  | receive size => some (some size)
  | call _ => none
  | quit => some none

theorem reading_anonymous (act : Act Callback) :
    act.anonymous.reading = act.reading := by
  cases act <;> rfl

end Act

variable {threads : Nat} {calls : Fin threads → Nat}

def act (forceQuit : Bool) {calls : Nat} (handshake : Handshake Callback calls) :
    Handshake.Event calls → Option (Act Callback)
  | .receive burst =>
      match handshake.receiver with
      | .polling => if forceQuit then some .quit else none
      | .receiving => some (.receive burst.val)
      | .processing (_ + 1) => handshake.rxCallback.map .call
      | _ => none
  | .wake => none
  | .register _ => none

def observe (state : State Callback calls) :
    Event calls → List (Fin threads × Act Callback)
  | .step thread event =>
      ((act state.forceQuit (state.handshake thread) event).map
        fun act => (thread, act)).toList
  | .triggerShutdown => []
  | .destroy => []

def actsOf (thread : Fin threads) (record : List (Fin threads × Act Callback)) :
    List (Act Callback) :=
  record.filterMap fun (other, act) => if other = thread then some act else none

def owed : Receiver → Nat
  | .processing left => left
  | _ => 0

def whole (size : Nat) : List (Act Unit) :=
  .receive size :: List.replicate size (.call ())

def acts : List (Option Nat) → List (Act Unit)
  | [] => []
  | none :: _ => [.quit]
  | some size :: rest => whole size ++ acts rest

theorem acts_append (sizes : List Nat) (rest : List (Option Nat)) :
    acts (sizes.map some ++ rest) = sizes.flatMap whole ++ acts rest := by
  induction sizes with
  | nil => rfl
  | cons size sizes induction =>
      rw [List.map_cons, List.cons_append, acts, induction, List.flatMap_cons,
        List.append_assoc]

/-! ## The loop over the buffers -/

section Loop

variable {Mbuf : Type u}

def visible : RxEvent Mbuf → List (Act Unit)
  | .receive mbufs => [.receive mbufs.length]
  | .use .callback _ _ => [.call ()]
  | .use _ _ _ => []
  | .warn _ => []

def loopActs (bufs : Nat → Mbuf) (polls : List (Poll Mbuf)) : List (Act Unit) :=
  (dpdkRxLoop bufs polls).1.flatMap visible ++
    if (dpdkRxLoop bufs polls).2 then [.quit] else []

def reading (poll : Poll Mbuf) : Option Nat :=
  if poll.forceQuit then none else some poll.burst.mbufs.length

theorem visible_within {nbRx : Nat} {trace : List (RxEvent Mbuf)}
    (within : ∀ event ∈ trace, Within nbRx event) :
    trace.flatMap visible =
      List.replicate (uses .callback trace).length (.call ()) := by
  induction trace with
  | nil => rfl
  | cons event rest induction =>
      have head := within event List.mem_cons_self
      have continued := induction fun later member =>
        within later (List.mem_cons_of_mem event member)
      cases event with
      | receive mbufs => exact head.elim
      | use kind index mbuf =>
          cases kind with
          | callback =>
              change .call () :: rest.flatMap visible = _
              rw [continued]
              rfl
          | prefetch => exact continued
          | measure => exact continued
          | free => exact continued
      | warn index => exact continued

theorem visible_pass (bufs : Nat → Mbuf) (poll : Poll Mbuf) :
    (RxEvent.receive poll.burst.mbufs ::
      processed bufs poll.burst poll.results).flatMap visible =
        whole poll.burst.mbufs.length := by
  rw [List.flatMap_cons, visible_within fun _ member =>
    within_of_mem_processed bufs poll.burst poll.results member, uses_processed]
  rfl

theorem ended_dpdkRxLoop (bufs : Nat → Mbuf) (polls : List (Poll Mbuf)) :
    (dpdkRxLoop bufs polls).2 = polls.any (·.forceQuit) := by
  induction polls generalizing bufs with
  | nil => rfl
  | cons poll rest induction =>
      rw [dpdkRxLoop, List.any_cons]
      split
      · next quit => rw [quit, Bool.true_or]
      · next goesOn =>
          rw [Bool.eq_false_iff.mpr goesOn, Bool.false_or]
          exact induction _

theorem loopActs_eq (bufs : Nat → Mbuf) (polls : List (Poll Mbuf)) :
    loopActs bufs polls = acts (polls.map reading) := by
  induction polls generalizing bufs with
  | nil => rfl
  | cons poll rest induction =>
      rw [loopActs, ended_dpdkRxLoop, List.any_cons, List.map_cons, reading]
      cases quit : poll.forceQuit with
      | true =>
          rw [dpdkRxLoop_quit bufs quit]
          rfl
      | false =>
          have continued := induction (fillBufs bufs poll.burst.mbufs)
          rw [loopActs, ended_dpdkRxLoop] at continued
          rw [dpdkRxLoop_goes_on bufs quit, List.flatMap_append, visible_pass,
            Bool.false_or, List.append_assoc, continued]
          rfl

end Loop

/-! ## Steps of a thread -/

/-- The steps of a receive thread that leave its mutex alone. -/
inductive Moves (forceQuit : Bool) (rxCallback : Option Callback) (burst : Nat) :
    Receiver → Receiver → Prop
  | testQuit :
      Moves forceQuit rxCallback burst .testQuit
        (if forceQuit then .leaving else .testCallback)
  | testCallback :
      Moves forceQuit rxCallback burst .testCallback
        (if rxCallback.isSome then .leaving else .blocking)
  | polling :
      Moves forceQuit rxCallback burst .polling
        (if forceQuit then .finished else .receiving)
  | receiving :
      Moves forceQuit rxCallback burst .receiving
        (if burst = 0 then .polling else .processing burst)
  | processed : Moves forceQuit rxCallback burst (.processing 0) .polling
  | called {left : Nat} {held : Callback} (isSet : rxCallback = some held) :
      Moves forceQuit rxCallback burst (.processing (left + 1))
        (.processing left)
  | threw {left : Nat} (unset : rxCallback = none) :
      Moves forceQuit rxCallback burst (.processing (left + 1)) .thrown

section Steps

variable {calls : Nat} {forceQuit : Bool}

inductive Receives (forceQuit : Bool) (burst : Nat)
    (handshake : Handshake Callback calls) : Handshake Callback calls → Prop
  | enter
      (waits : handshake.receiver = .launched ∨ handshake.receiver = .blocked)
      (awake : handshake.receiver = .blocked → ¬ Asleep handshake)
      (free : handshake.callbackMutex.owner = none) :
      Receives forceQuit burst handshake { handshake with
        receiver := .testQuit
        callbackMutex := ⟨some .receiver, handshake.callbackMutex.blocked⟩ }
  | move {receiver : Receiver}
      (moves : Moves forceQuit handshake.rxCallback burst handshake.receiver
        receiver) :
      Receives forceQuit burst handshake { handshake with receiver := receiver }
  | wait (blocking : handshake.receiver = .blocking) :
      Receives forceQuit burst handshake { handshake with
        receiver := .blocked
        callbackMutex := handshake.callbackMutex.wait .receiver }
  | leave (leaving : handshake.receiver = .leaving) :
      Receives forceQuit burst handshake { handshake with
        receiver := .polling
        callbackMutex := handshake.callbackMutex.unlock }

theorem receives_of_receive {handshake next : Handshake Callback calls}
    {burst : Fin (Handshake.burstSize + 1)}
    (enabled : handshake.receive forceQuit burst = some next) :
    Receives forceQuit burst.val handshake next := by
  have moving {receiver : Receiver} (phase : handshake.receiver = receiver)
      {reached : Receiver}
      (moves : Moves forceQuit handshake.rxCallback burst.val receiver reached)
      (isNext : { handshake with receiver := reached } = next) :
      Receives forceQuit burst.val handshake next := by
    rw [← phase] at moves
    exact isNext ▸ .move moves
  rw [Handshake.receive.eq_def] at enabled
  cases phase : handshake.receiver with
  | launched =>
      rw [phase] at enabled
      rcases Option.map_eq_some_iff.mp enabled with ⟨locked, isLocked, rfl⟩
      rcases Monitor.lock_eq_some_iff.mp isLocked with ⟨free, rfl⟩
      exact .enter (.inl phase) (by rw [phase]; simp) free
  | testQuit =>
      rw [phase] at enabled
      exact moving phase .testQuit (Option.some.inj enabled)
  | testCallback =>
      rw [phase] at enabled
      exact moving phase .testCallback (Option.some.inj enabled)
  | blocking =>
      rw [phase] at enabled
      rcases Option.some.inj enabled with rfl
      exact .wait phase
  | blocked =>
      rw [phase] at enabled
      rcases Option.map_eq_some_iff.mp enabled with ⟨resumed, isResumed, rfl⟩
      rcases Monitor.resume_eq_some_iff.mp isResumed with ⟨awake, free, rfl⟩
      exact .enter (.inr phase) (fun _ => Bool.eq_false_iff.mp awake) free
  | leaving =>
      rw [phase] at enabled
      rcases Option.some.inj enabled with rfl
      exact .leave phase
  | polling =>
      rw [phase] at enabled
      exact moving phase .polling (Option.some.inj enabled)
  | receiving =>
      rw [phase] at enabled
      exact moving phase .receiving (Option.some.inj enabled)
  | processing left =>
      rw [phase] at enabled
      cases left with
      | zero => exact moving phase .processed (Option.some.inj enabled)
      | succ left =>
          dsimp only at enabled
          split at enabled
          · next unset => exact moving phase (.threw unset) (Option.some.inj enabled)
          · next isSet => exact moving phase (.called isSet) (Option.some.inj enabled)
  | thrown =>
      rw [phase] at enabled
      cases enabled
  | finished =>
      rw [phase] at enabled
      cases enabled

inductive Registers (forceQuit : Bool) (rxCallback : Callback) (call : Fin calls)
    (handshake : Handshake Callback calls) : Handshake Callback calls → Prop
  | store (called : handshake.registrar call = .called) :
      Registers forceQuit rxCallback call handshake { handshake with
        rxCallback := some rxCallback
        registrar := Function.update handshake.registrar call .stored }
  | lock (stored : handshake.registrar call = .stored)
      (free : handshake.callbackMutex.owner = none) :
      Registers forceQuit rxCallback call handshake { handshake with
        callbackMutex :=
          ⟨some (.registrar call), handshake.callbackMutex.blocked⟩
        registrar := Function.update handshake.registrar call .locked }
  | notify (locked : handshake.registrar call = .locked) :
      Registers forceQuit rxCallback call handshake { handshake with
        callbackMutex := handshake.callbackMutex.notifyAll
        registrar := Function.update handshake.registrar call .notified
        notifiedSinceQuit := handshake.notifiedSinceQuit || forceQuit }
  | unlock (notified : handshake.registrar call = .notified) :
      Registers forceQuit rxCallback call handshake { handshake with
        callbackMutex := handshake.callbackMutex.unlock
        registrar := Function.update handshake.registrar call .returned }

theorem registers_of_register {handshake next : Handshake Callback calls}
    {rxCallback : Callback} {call : Fin calls}
    (enabled : handshake.register forceQuit rxCallback call = some next) :
    Registers forceQuit rxCallback call handshake next := by
  rw [Handshake.register] at enabled
  cases phase : handshake.registrar call with
  | called =>
      rw [phase] at enabled
      rcases Option.some.inj enabled with rfl
      exact .store phase
  | stored =>
      rw [phase] at enabled
      rcases Option.map_eq_some_iff.mp enabled with ⟨locked, isLocked, rfl⟩
      rcases Monitor.lock_eq_some_iff.mp isLocked with ⟨free, rfl⟩
      exact .lock phase free
  | locked =>
      rw [phase] at enabled
      rcases Option.some.inj enabled with rfl
      exact .notify phase
  | notified =>
      rw [phase] at enabled
      rcases Option.some.inj enabled with rfl
      exact .unlock phase
  | returned =>
      rw [phase] at enabled
      cases enabled

end Steps

/-- A thread has made all the calls that its bursts ask for, but those it owes,
and has quit if it has finished. -/
def Served (receiver : Receiver) (done : List (Act Callback)) : Prop :=
  ∃ sizes : List Nat,
    done.map Act.anonymous ++ List.replicate (owed receiver) (.call ()) =
      sizes.flatMap whole ++ if receiver = .finished then [.quit] else []

def Free (receiver : Receiver) : Prop :=
  owed receiver = 0 ∧ receiver ≠ .finished

section Thread

variable {receiver after : Receiver} {done : List (Act Callback)}

theorem served_iff_of_free (free : Free receiver) :
    Served receiver done ↔
      ∃ sizes : List Nat, done.map Act.anonymous = sizes.flatMap whole := by
  rw [Served, free.1, if_neg free.2]
  simp

theorem Served.whole_bursts (served : Served receiver done)
    (free : Free receiver) :
    ∃ sizes : List Nat, done.map Act.anonymous = sizes.flatMap whole :=
  (served_iff_of_free free).mp served

theorem Served.silent (served : Served receiver done) (free : Free receiver)
    (goesOn : Free after) :
    Served after (done ++ (none : Option (Act Callback)).toList) := by
  rw [Option.toList_none, List.append_nil, served_iff_of_free goesOn]
  exact served.whole_bursts free

theorem Served.receive (served : Served .receiving done) (size : Nat) :
    Served (if size = 0 then .polling else .processing size)
      (done ++ [.receive size]) := by
  rcases served.whole_bursts ⟨rfl, by simp⟩ with ⟨sizes, isDone⟩
  have owes : owed (if size = 0 then .polling else .processing size) = size := by
    split
    · next empty => exact empty.symm
    · rfl
  have goesOn : (if size = 0 then Receiver.polling else .processing size) ≠
      .finished := by
    split <;> simp
  refine ⟨sizes ++ [size], ?_⟩
  rw [owes, if_neg goesOn, List.append_nil, List.map_append, isDone,
    List.flatMap_append, List.append_assoc]
  simp [whole, Act.anonymous]

theorem Served.call {left : Nat} (served : Served (.processing (left + 1)) done)
    (rxCallback : Callback) :
    Served (.processing left) (done ++ [.call rxCallback]) := by
  rcases served with ⟨sizes, isDone⟩
  refine ⟨sizes, ?_⟩
  rw [if_neg (by simp)] at isDone ⊢
  rw [← isDone, List.map_append, List.append_assoc]
  rfl

theorem Served.quit (served : Served .polling done) :
    Served .finished (done ++ [.quit]) := by
  rcases served.whole_bursts ⟨rfl, by simp⟩ with ⟨sizes, isDone⟩
  refine ⟨sizes, ?_⟩
  rw [if_pos rfl, List.map_append, isDone]
  exact List.append_nil _

variable {calls : Nat} {forceQuit : Bool}

theorem served_receive {handshake next : Handshake Callback calls}
    (served : Served handshake.receiver done)
    (knows : Knows forceQuit handshake.rxCallback handshake.receiver)
    {burst : Fin (Handshake.burstSize + 1)}
    (enabled : handshake.receive forceQuit burst = some next) :
    Served next.receiver
      (done ++ (act forceQuit handshake (.receive burst)).toList) := by
  dsimp only [act]
  cases receives_of_receive enabled with
  | enter waits awake free =>
      rcases waits with phase | phase
      · rw [phase] at served ⊢
        exact served.silent ⟨rfl, by simp⟩ ⟨rfl, by simp⟩
      · rw [phase] at served ⊢
        exact served.silent ⟨rfl, by simp⟩ ⟨rfl, by simp⟩
  | wait phase =>
      rw [phase] at served ⊢
      exact served.silent ⟨rfl, by simp⟩ ⟨rfl, by simp⟩
  | leave phase =>
      rw [phase] at served ⊢
      exact served.silent ⟨rfl, by simp⟩ ⟨rfl, by simp⟩
  | move moves =>
      generalize handshake.receiver = receiver at *
      cases moves with
      | testQuit =>
          refine served.silent ⟨rfl, by simp⟩ ?_
          split
          · exact ⟨rfl, by simp⟩
          · exact ⟨rfl, by simp⟩
      | testCallback =>
          refine served.silent ⟨rfl, by simp⟩ ?_
          split
          · exact ⟨rfl, by simp⟩
          · exact ⟨rfl, by simp⟩
      | polling =>
          cases forceQuit with
          | true => exact served.quit
          | false => exact served.silent ⟨rfl, by simp⟩ ⟨rfl, by simp⟩
      | receiving => exact served.receive burst.val
      | processed => exact served.silent ⟨rfl, by simp⟩ ⟨rfl, by simp⟩
      | called isSet =>
          rw [isSet]
          exact served.call _
      | threw unset => exact absurd unset knows

theorem register_receiver {handshake next : Handshake Callback calls}
    {rxCallback : Callback} {call : Fin calls}
    (enabled : handshake.register forceQuit rxCallback call = some next) :
    next.receiver = handshake.receiver ∧
      (next.rxCallback = handshake.rxCallback ∨
        next.rxCallback = some rxCallback) := by
  cases registers_of_register enabled with
  | store called => exact ⟨rfl, .inr rfl⟩
  | lock stored free => exact ⟨rfl, .inl rfl⟩
  | notify locked => exact ⟨rfl, .inl rfl⟩
  | unlock notified => exact ⟨rfl, .inl rfl⟩

theorem receive_rxCallback {handshake next : Handshake Callback calls}
    {burst : Fin (Handshake.burstSize + 1)}
    (enabled : handshake.receive forceQuit burst = some next) :
    next.rxCallback = handshake.rxCallback ∧
      handshake.receiver ≠ .finished := by
  cases receives_of_receive enabled with
  | enter waits awake free =>
      refine ⟨rfl, ?_⟩
      rcases waits with phase | phase
      · simp [phase]
      · simp [phase]
  | wait phase => exact ⟨rfl, by simp [phase]⟩
  | leave phase => exact ⟨rfl, by simp [phase]⟩
  | move moves =>
      refine ⟨rfl, ?_⟩
      intro finished
      rw [finished] at moves
      cases moves

variable {request : Fin calls → Callback}
  {handshake next : Handshake Callback calls} {event : Handshake.Event calls}

theorem served_next (served : Served handshake.receiver done)
    (knows : Knows forceQuit handshake.rxCallback handshake.receiver)
    (enabled : handshake.next forceQuit request event = some next) :
    Served next.receiver
      (done ++ (act forceQuit handshake event).toList) := by
  cases event with
  | receive burst => exact served_receive served knows enabled
  | wake =>
      rcases Option.map_eq_some_iff.mp enabled with ⟨woken, -, rfl⟩
      exact (List.append_nil done).symm ▸ served
  | register call =>
      rw [(register_receiver enabled).1]
      exact (List.append_nil done).symm ▸ served

theorem next_rxCallback
    (enabled : handshake.next forceQuit request event = some next) :
    next.rxCallback = handshake.rxCallback ∨
      ∃ call, next.rxCallback = some (request call) := by
  cases event with
  | receive burst => exact .inl (receive_rxCallback enabled).1
  | wake =>
      rcases Option.map_eq_some_iff.mp enabled with ⟨woken, -, rfl⟩
      exact .inl rfl
  | register call =>
      rcases (register_receiver enabled).2 with kept | stored
      · exact .inl kept
      · exact .inr ⟨call, stored⟩

theorem next_finished (finished : handshake.receiver = .finished)
    (enabled : handshake.next forceQuit request event = some next) :
    next.receiver = .finished := by
  cases event with
  | receive burst => exact absurd finished (receive_rxCallback enabled).2
  | wake =>
      rcases Option.map_eq_some_iff.mp enabled with ⟨woken, -, rfl⟩
      exact finished
  | register call => exact (register_receiver enabled).1.trans finished

theorem rxCallback_of_called {rxCallback : Callback}
    (called : .call rxCallback ∈ (act forceQuit handshake event).toList) :
    handshake.rxCallback = some rxCallback := by
  rw [Option.mem_toList] at called
  cases event with
  | wake => cases called
  | register call => cases called
  | receive burst =>
      dsimp only [act] at called
      split at called
      · split at called <;> cases called
      · cases called
      · rcases Option.map_eq_some_iff.mp called with ⟨held, isHeld, isCall⟩
        rw [isHeld, Act.call.inj isCall]
      · cases called

end Thread

/-! ## All threads -/

section System

variable {request : (thread : Fin threads) → Fin (calls thread) → Callback}
  {state after : State Callback calls} {event : Event calls}
  {record : List (Fin threads × Act Callback)}

theorem handshake_next (enabled : next request state event = some after)
    (thread : Fin threads) :
    (∃ own, event = .step thread own ∧
        (state.handshake thread).next state.forceQuit (request thread) own =
          some (after.handshake thread)) ∨
      ((∀ own, event ≠ .step thread own) ∧
        after.handshake thread = state.handshake thread) := by
  cases event with
  | step stepping own =>
      rcases Option.map_eq_some_iff.mp enabled with ⟨handshake, stepped, rfl⟩
      by_cases same : stepping = thread
      · subst same
        refine .inl ⟨own, rfl, ?_⟩
        rw [stepped]
        exact congrArg some
          (Function.update_self stepping handshake state.handshake).symm
      · refine .inr ⟨?_, Function.update_of_ne (Ne.symm same) _ _⟩
        intro other isOther
        exact same (Event.step.inj isOther).1
  | triggerShutdown =>
      rcases Option.some.inj enabled with rfl
      exact .inr ⟨by simp, rfl⟩
  | destroy => exact .inr ⟨by simp, congrFun (destroy_eq_some enabled).1 thread⟩

theorem actsOf_observe_own (state : State Callback calls) (thread : Fin threads)
    (own : Handshake.Event (calls thread)) :
    actsOf thread (observe state (.step thread own)) =
      (act state.forceQuit (state.handshake thread) own).toList := by
  rw [actsOf, observe]
  cases act state.forceQuit (state.handshake thread) own with
  | none => rfl
  | some act => simp

theorem actsOf_observe_other (state : State Callback calls)
    {thread : Fin threads} (other : ∀ own, event ≠ .step thread own) :
    actsOf thread (observe state event) = [] := by
  cases event with
  | step stepping own =>
      have different : stepping ≠ thread := by
        intro same
        subst same
        exact other own rfl
      rw [actsOf, observe]
      cases act state.forceQuit (state.handshake stepping) own with
      | none => rfl
      | some act => simp [different]
  | triggerShutdown => rfl
  | destroy => rfl

theorem actsOf_append (thread : Fin threads)
    (first second : List (Fin threads × Act Callback)) :
    actsOf thread (first ++ second) =
      actsOf thread first ++ actsOf thread second :=
  List.filterMap_append

theorem requested_of_reachable (reachable : (callbacks request).Reachable state)
    (thread : Fin threads) {rxCallback : Callback}
    (holds : (state.handshake thread).rxCallback = some rxCallback) :
    ∃ call, request thread call = rxCallback := by
  refine reachable.invariant
    (fun state => ∀ rxCallback,
      (state.handshake thread).rxCallback = some rxCallback →
        ∃ call, request thread call = rxCallback)
    (fun _ none => by cases none) ?_ rxCallback holds
  intro before event after requested _ enabled rxCallback holds
  rcases handshake_next enabled thread with ⟨own, -, stepped⟩ | ⟨-, same⟩
  · rcases next_rxCallback stepped with kept | ⟨call, stored⟩
    · exact requested rxCallback (kept ▸ holds)
    · exact ⟨call, Option.some.inj (stored.symm.trans holds)⟩
  · exact requested rxCallback (same ▸ holds)

theorem finished_of_joined (reachable : (callbacks request).Reachable state)
    (joined : state.destructor = .joined) (thread : Fin threads) :
    (state.handshake thread).receiver = .finished := by
  refine reachable.invariant
    (fun state => state.destructor = .joined →
      (state.handshake thread).receiver = .finished)
    (fun notCalled => by cases notCalled) ?_ joined
  intro before event after finished _ enabled joined
  have stays (joinedBefore : before.destructor = .joined) :
      (after.handshake thread).receiver = .finished := by
    rcases handshake_next enabled thread with ⟨own, -, stepped⟩ | ⟨-, same⟩
    · exact next_finished (finished joinedBefore) stepped
    · rw [same]
      exact finished joinedBefore
  cases event with
  | step stepping own =>
      rcases Option.map_eq_some_iff.mp enabled with ⟨handshake, -, rfl⟩
      exact stays joined
  | triggerShutdown =>
      rcases Option.some.inj enabled with rfl
      exact stays joined
  | destroy =>
      change destroy before = some after at enabled
      rw [destroy] at enabled
      split at enabled
      · split at enabled
        · rcases Option.some.inj enabled with rfl
          split at joined <;> cases joined
        · cases enabled
      · rcases Option.some.inj enabled with rfl
        cases joined
      · split at enabled
        · next all =>
            rcases Option.some.inj enabled with rfl
            exact all thread
        · cases enabled
      · cases enabled

/-- The run lemma of the record. -/
theorem served_of_reachable
    (reachable : ((callbacks request).recorded observe).Reachable (state, record))
    (thread : Fin threads) :
    (callbacks request).Reachable state ∧
      Served (state.handshake thread).receiver (actsOf thread record) ∧
      ∀ rxCallback, .call rxCallback ∈ actsOf thread record →
        ∃ call, request thread call = rxCallback := by
  refine reachable.invariant_recorded
    (fun state record =>
      Served (state.handshake thread).receiver (actsOf thread record) ∧
        ∀ rxCallback, .call rxCallback ∈ actsOf thread record →
          ∃ call, request thread call = rxCallback)
    ⟨⟨[], rfl⟩, fun _ called => absurd called List.not_mem_nil⟩ ?_
  intro before record event after reached holds enabled
  rcases holds with ⟨served, requested⟩
  rw [actsOf_append]
  rcases handshake_next enabled thread with ⟨own, rfl, stepped⟩ | ⟨other, same⟩
  · rw [actsOf_observe_own]
    refine ⟨served_next served (invariant_of_reachable reached thread).knows
      stepped, ?_⟩
    intro rxCallback called
    rcases List.mem_append.mp called with earlier | now
    · exact requested rxCallback earlier
    · exact requested_of_reachable reached thread (rxCallback_of_called now)
  · rw [actsOf_observe_other before other, List.append_nil, same]
    exact ⟨served, requested⟩

/-! ## Threads and their loops -/

theorem filterMap_reading_anonymous (done : List (Act Callback)) :
    (done.map Act.anonymous).filterMap Act.reading =
      done.filterMap Act.reading := by
  rw [List.filterMap_map]
  exact List.filterMap_congr fun act _ => act.reading_anonymous

theorem filterMap_reading_calls (count : Nat) :
    (List.replicate count (Act.call ())).filterMap Act.reading = [] := by
  simp [Act.reading]

theorem filterMap_reading_whole (sizes : List Nat) :
    (sizes.flatMap whole).filterMap Act.reading = sizes.map some := by
  induction sizes with
  | nil => rfl
  | cons size sizes induction =>
      rw [List.flatMap_cons, List.filterMap_append, induction]
      change (some size :: (List.replicate size (Act.call ())).filterMap
        Act.reading) ++ sizes.map some = _
      rw [filterMap_reading_calls]
      rfl

theorem Served.acts_eq {receiver : Receiver} {done : List (Act Callback)}
    (served : Served receiver done) :
    acts (done.filterMap Act.reading) =
        done.map Act.anonymous ++ List.replicate (owed receiver) (.call ()) ∧
      (none ∈ done.filterMap Act.reading ↔ receiver = .finished) := by
  rcases served with ⟨sizes, isDone⟩
  have isRead : done.filterMap Act.reading =
      sizes.map some ++ if receiver = .finished then [none] else [] := by
    have both := congrArg (List.filterMap Act.reading) isDone
    rw [List.filterMap_append, List.filterMap_append,
      filterMap_reading_anonymous, filterMap_reading_whole,
      filterMap_reading_calls, List.append_nil] at both
    rw [both]
    split <;> rfl
  rw [isDone, isRead, acts_append]
  constructor
  · split <;> rfl
  · split
    · next finished => simp [finished]
    · next goesOn => simp [goesOn]

section Loops

variable {Mbuf : Type u}

theorem called_visible (trace : List (RxEvent Mbuf)) :
    ((trace.flatMap visible).filterMap Act.called).length =
      (uses .callback trace).length := by
  induction trace with
  | nil => rfl
  | cons event rest induction =>
      have split : uses .callback (event :: rest) =
          uses .callback [event] ++ uses .callback rest :=
        uses_append .callback [event] rest
      rw [List.flatMap_cons, List.filterMap_append, split, List.length_append,
        List.length_append, induction]
      congr 1
      cases event with
      | receive mbufs => rfl
      | use kind index mbuf => cases kind <;> rfl
      | warn index => rfl

theorem called_anonymous (done : List (Act Callback)) :
    ((done.map Act.anonymous).filterMap Act.called).length =
      (done.filterMap Act.called).length := by
  induction done with
  | nil => rfl
  | cons act rest induction =>
      cases act with
      | receive size => exact induction
      | call rxCallback => exact congrArg (· + 1) induction
      | quit => exact induction

theorem mem_called {done : List (Act Callback)} {rxCallback : Callback}
    (member : rxCallback ∈ done.filterMap Act.called) :
    .call rxCallback ∈ done := by
  rcases List.mem_filterMap.mp member with ⟨act, isAct, isCalled⟩
  cases act with
  | call other => exact Option.some.inj isCalled ▸ isAct
  | receive size => cases isCalled
  | quit => cases isCalled

/-- The polls of the loop find what a thread got to know. -/
def Polled (polls : List (Poll Mbuf)) (done : List (Act Callback)) : Prop :=
  polls.map reading = done.filterMap Act.reading

theorem Served.loop {receiver : Receiver} {done : List (Act Callback)}
    (served : Served receiver done) (bufs : Nat → Mbuf) {polls : List (Poll Mbuf)}
    (polled : Polled polls done) :
    done.map Act.anonymous ++ List.replicate (owed receiver) (.call ()) =
        loopActs bufs polls ∧
      ((dpdkRxLoop bufs polls).2 = true ↔ receiver = .finished) := by
  have quits (poll : Poll Mbuf) : reading poll = none ↔ poll.forceQuit = true := by
    rw [reading]
    cases poll.forceQuit <;> simp
  rw [loopActs_eq, ended_dpdkRxLoop, polled, ← served.acts_eq.1,
    ← served.acts_eq.2, ← polled, List.any_eq_true, List.mem_map]
  simp only [quits, true_and]

def samplePoll (forceQuit : Bool) (packets : Nat) (atMost : packets ≤ 32) :
    Poll Nat where
  forceQuit := forceQuit
  burst := ⟨List.range packets, by simpa [dpdkBurstSize] using atMost,
    List.nodup_range⟩
  results _ := 0

variable
  (reachable : ((callbacks request).recorded observe).Reachable (state, record))
  (thread : Fin threads) (bufs : Nat → Mbuf) {polls : List (Poll Mbuf)}
  (polled : Polled polls (actsOf thread record))
include reachable polled

/-- However the threads, the registrations and the shutdown alternate, a thread
has done what its loop does, up to calls for the packets of its last burst, and
has called nothing that is not registered for it. -/
theorem threads_run_loop :
    (actsOf thread record).map Act.anonymous ++
        List.replicate (owed (state.handshake thread).receiver) (.call ()) =
          loopActs bufs polls ∧
      ((dpdkRxLoop bufs polls).2 = true ↔
        (state.handshake thread).receiver = .finished) ∧
      ∀ rxCallback, .call rxCallback ∈ actsOf thread record →
        ∃ call, request thread call = rxCallback := by
  rcases served_of_reachable reachable thread with ⟨-, served, requested⟩
  exact ⟨(served.loop bufs polled).1, (served.loop bufs polled).2, requested⟩

omit reachable polled in
theorem threads_run_loop_sample :
    ∃ (state : State Unit fun _ : Fin 1 => 1) (record : List (Fin 1 × Act Unit)),
      (state.handshake 0).receiver = .processing 1 ∧
        (actsOf 0 record).map Act.anonymous ++
            List.replicate (owed (state.handshake 0).receiver) (.call ()) =
          loopActs id [samplePoll false 1 (by decide)] := by
  have runs : ∃ state record,
      ((callbacks fun (_ : Fin 1) (_ : Fin 1) => ()).recorded observe).run
          (start, []) registeredRun = some (state, record) ∧
        (state.handshake 0).receiver = .processing 1 ∧
        actsOf 0 record = [.receive 1] := ⟨_, _, rfl, rfl, rfl⟩
  rcases runs with ⟨state, record, run, processing, isRecord⟩
  have polled : Polled [samplePoll false 1 (by decide)] (actsOf 0 record) := by
    rw [isRecord]
    rfl
  have looped := threads_run_loop
    (Transition.leads_of_run (fun _ _ _ => trivial) run) 0 id polled
  exact ⟨state, record, processing, looped.1⟩

/-- When the destructor has joined the threads, every packet that a thread has
received was handed to a callback that is registered for it, and was freed. -/
theorem joined_handled (joined : state.destructor = .joined) :
    (dpdkRxLoop bufs polls).2 = true ∧
      uses .free (dpdkRxLoop bufs polls).1 = received polls ∧
      ((actsOf thread record).filterMap Act.called).length =
        (received polls).length ∧
      ∀ rxCallback ∈ (actsOf thread record).filterMap Act.called,
        ∃ call, request thread call = rxCallback := by
  rcases served_of_reachable reachable thread with ⟨reached, served, requested⟩
  have finished := finished_of_joined reached joined thread
  rcases served.loop bufs polled with ⟨isLoop, ends⟩
  refine ⟨ends.mpr finished, uses_dpdkRxLoop bufs polls .free, ?_,
    fun rxCallback member => requested rxCallback (mem_called member)⟩
  have owesNothing : List.replicate (owed .finished) (Act.call ()) = [] := rfl
  rw [finished, owesNothing, List.append_nil, loopActs] at isLoop
  have counted := congrArg (fun done => (done.filterMap Act.called).length) isLoop
  rw [ends.mpr finished] at counted
  rw [called_anonymous, List.filterMap_append, List.length_append,
    called_visible, uses_dpdkRxLoop] at counted
  exact counted

omit reachable polled in
theorem joined_handled_sample :
    ∃ (state : State Unit fun _ : Fin 1 => 1) (record : List (Fin 1 × Act Unit)),
      state.destructor = .joined ∧
        ((actsOf 0 record).filterMap Act.called).length =
          (received [samplePoll false 1 (by decide),
            samplePoll true 0 (by decide)]).length := by
  have runs : ∃ state record,
      ((callbacks fun (_ : Fin 1) (_ : Fin 1) => ()).recorded observe).run
          (start, []) (registeredRun ++ [.step 0 (.receive 0),
            .step 0 (.receive 0), .triggerShutdown, .step 0 (.receive 0),
            .destroy, .destroy]) = some (state, record) ∧
        state.destructor = .joined ∧
        actsOf 0 record = [.receive 1, .call (), .quit] := ⟨_, _, rfl, rfl, rfl⟩
  rcases runs with ⟨state, record, run, joined, isRecord⟩
  have polled : Polled [samplePoll false 1 (by decide),
      samplePoll true 0 (by decide)] (actsOf 0 record) := by
    rw [isRecord]
    rfl
  have handled := joined_handled
    (Transition.leads_of_run (fun _ _ _ => trivial) run) 0 id polled joined
  exact ⟨state, record, joined, handled.2.2.1⟩

end Loops

end System

end PacketFilter.Contracts.ReceiveThreads
