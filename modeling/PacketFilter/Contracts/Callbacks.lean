import PacketFilter.Software.Callbacks

/-! # Callback registration contract

A receive thread does not call an empty function, and a registration that has
returned does not leave the thread it is for waiting.
-/

namespace PacketFilter.Contracts.Callbacks

open Software.Callbacks

variable {Callback : Type}

section Thread

variable {calls : Nat}

def HoldsMutex : Receiver → Prop
  | .testQuit | .testCallback | .blocking | .leaving => True
  | _ => False

/-- Who is between locking and unlocking the mutex. -/
def Inside (handshake : Handshake Callback calls) : Party calls → Prop
  | .receiver => HoldsMutex handshake.receiver
  | .registrar call =>
      handshake.registrar call = .locked ∨
        handshake.registrar call = .notified

def ToNotify : Registrar → Prop
  | .called | .stored | .locked => True
  | .notified | .returned => False

/-- What a receive thread has found out about its callback. -/
def Knows (forceQuit : Bool) (rxCallback : Option Callback) : Receiver → Prop
  | .leaving | .polling => rxCallback ≠ none ∨ forceQuit = true
  | .receiving | .processing _ => rxCallback ≠ none
  | .thrown => False
  | _ => True

def Asleep (handshake : Handshake Callback calls) : Prop :=
  handshake.callbackMutex.blocked .receiver = true

structure Invariant (forceQuit : Bool) (handshake : Handshake Callback calls) :
    Prop where
  excludes : handshake.callbackMutex.Excludes (Inside handshake)
  blocked : Asleep handshake → handshake.receiver = .blocked
  stored : ∀ call, handshake.registrar call ≠ .called →
    handshake.rxCallback ≠ none
  knows : Knows forceQuit handshake.rxCallback handshake.receiver
  /-- A thread that blocks has yet to be notified by every call. -/
  toNotify : handshake.receiver = .blocking ∨ Asleep handshake →
    ∀ call, ToNotify (handshake.registrar call)

variable {forceQuit : Bool} {handshake after : Handshake Callback calls}

theorem invariant_start :
    Invariant forceQuit (Handshake.start : Handshake Callback calls) where
  excludes party isInside := by
    cases party with
    | receiver => cases isInside
    | registrar call => rcases isInside with locked | notified <;> contradiction
  blocked asleep := by cases asleep
  stored call notCalled := absurd rfl notCalled
  knows := trivial
  toNotify _ _ := trivial

theorem Knows.quit {rxCallback : Option Callback} {receiver : Receiver}
    (knows : Knows forceQuit rxCallback receiver) :
    Knows true rxCallback receiver := by
  cases receiver <;> simp_all [Knows]

theorem Knows.store {rxCallback : Option Callback} {receiver : Receiver}
    (knows : Knows forceQuit rxCallback receiver) (stored : Callback) :
    Knows forceQuit (some stored) receiver := by
  cases receiver <;> simp_all [Knows]

theorem Invariant.quit (invariant : Invariant forceQuit handshake) :
    Invariant true handshake where
  excludes := invariant.excludes
  blocked := invariant.blocked
  stored := invariant.stored
  knows := invariant.knows.quit
  toNotify := invariant.toNotify

theorem Invariant.awake (invariant : Invariant forceQuit handshake)
    (elsewhere : handshake.receiver ≠ .blocked) : ¬ Asleep handshake :=
  fun asleep => elsewhere (invariant.blocked asleep)

/-- A thread that is neither about to block nor asleep has nothing to wait
for. -/
theorem toNotify_of_awake (elsewhere : handshake.receiver ≠ .blocking)
    (awake : ¬ Asleep handshake) :
    handshake.receiver = .blocking ∨ Asleep handshake →
      ∀ call, ToNotify (handshake.registrar call) := by
  intro waits
  rcases waits with blocking | asleep
  · exact absurd blocking elsewhere
  · exact absurd asleep awake

theorem Invariant.outside (invariant : Invariant forceQuit handshake)
    {held given : Receiver} (phase : handshake.receiver = held)
    (wasHeld : HoldsMutex held) (isGiven : ¬ HoldsMutex given)
    (callbackMutex : Monitor (Party calls)) :
    callbackMutex.Excludes (Inside { handshake with
      receiver := given
      callbackMutex := callbackMutex }) := by
  have wasInside : Inside handshake .receiver := by
    rw [Inside, phase]
    exact wasHeld
  refine invariant.excludes.leave wasInside ?_
  intro party isInside
  cases party with
  | receiver => exact absurd isInside isGiven
  | registrar call => exact ⟨isInside, nofun⟩

/-! ### Steps of the receive thread -/

theorem Invariant.move (invariant : Invariant forceQuit handshake)
    {receiver : Receiver} (elsewhere : handshake.receiver ≠ .blocked)
    (inside : HoldsMutex receiver → HoldsMutex handshake.receiver)
    (unset : receiver = .blocking → handshake.rxCallback = none)
    (knows : Knows forceQuit handshake.rxCallback receiver) :
    Invariant forceQuit { handshake with receiver := receiver } where
  excludes := by
    refine invariant.excludes.keep rfl ?_
    intro party isInside
    cases party with
    | receiver => exact inside isInside
    | registrar call => exact isInside
  blocked asleep := absurd asleep (invariant.awake elsewhere)
  stored := invariant.stored
  knows := knows
  toNotify := by
    intro waits call
    rcases waits with blocking | asleep
    · -- without a callback no call has got to its store
      have isCalled : handshake.registrar call = .called := by
        by_contra notCalled
        exact invariant.stored call notCalled (unset blocking)
      change ToNotify (handshake.registrar call)
      rw [isCalled]
      trivial
    · exact absurd asleep (invariant.awake elsewhere)

theorem Invariant.enter (invariant : Invariant forceQuit handshake)
    (free : handshake.callbackMutex.owner = none) (awake : ¬ Asleep handshake) :
    Invariant forceQuit { handshake with
      receiver := .testQuit
      callbackMutex := ⟨some .receiver, handshake.callbackMutex.blocked⟩ } where
  excludes := by
    refine invariant.excludes.enter free rfl ?_
    intro party isInside
    cases party with
    | receiver => exact .inl rfl
    | registrar call => exact .inr isInside
  blocked asleep := absurd asleep awake
  stored := invariant.stored
  knows := trivial
  toNotify := toNotify_of_awake nofun awake

theorem Invariant.wait (invariant : Invariant forceQuit handshake)
    (blocking : handshake.receiver = .blocking) :
    Invariant forceQuit { handshake with
      receiver := .blocked
      callbackMutex := handshake.callbackMutex.wait .receiver } where
  excludes := invariant.outside blocking trivial id _
  blocked _ := rfl
  stored := invariant.stored
  knows := trivial
  toNotify _ := invariant.toNotify (.inl blocking)

theorem Invariant.leave (invariant : Invariant forceQuit handshake)
    (leaving : handshake.receiver = .leaving) :
    Invariant forceQuit { handshake with
      receiver := .polling
      callbackMutex := handshake.callbackMutex.unlock } where
  excludes := invariant.outside leaving trivial id _
  blocked asleep := by
    have elsewhere : handshake.receiver ≠ .blocked := by rw [leaving]; nofun
    exact absurd asleep (invariant.awake elsewhere)
  stored := invariant.stored
  knows := by
    have knows := invariant.knows
    rw [leaving] at knows
    exact knows
  toNotify := by
    have elsewhere : handshake.receiver ≠ .blocked := by rw [leaving]; nofun
    exact toNotify_of_awake nofun (invariant.awake elsewhere)

theorem invariant_receive (invariant : Invariant forceQuit handshake)
    {burst : Fin (Handshake.burstSize + 1)}
    (enabled : handshake.receive forceQuit burst = some after) :
    Invariant forceQuit after := by
  rw [Handshake.receive.eq_def] at enabled
  have knows := invariant.knows
  cases phase : handshake.receiver with
  | launched =>
      rw [phase] at enabled
      rcases Option.map_eq_some_iff.mp enabled with ⟨locked, isLocked, rfl⟩
      rcases Monitor.lock_eq_some_iff.mp isLocked with ⟨free, rfl⟩
      exact invariant.enter free (invariant.awake (by rw [phase]; nofun))
  | testQuit =>
      rw [phase] at enabled
      rcases Option.some.inj enabled with rfl
      refine invariant.move (by rw [phase]; nofun)
        (fun _ => by rw [phase]; trivial) ?_ ?_
      · split <;> nofun
      · split
        · next quit => exact .inr quit
        · trivial
  | testCallback =>
      rw [phase] at enabled
      rcases Option.some.inj enabled with rfl
      refine invariant.move (by rw [phase]; nofun)
        (fun _ => by rw [phase]; trivial) ?_ ?_
      · split
        · nofun
        · next unset => simpa using unset
      · split
        · next isSet => exact .inl (Option.isSome_iff_ne_none.mp isSet)
        · trivial
  | blocking =>
      rw [phase] at enabled
      rcases Option.some.inj enabled with rfl
      exact invariant.wait phase
  | blocked =>
      rw [phase] at enabled
      rcases Option.map_eq_some_iff.mp enabled with ⟨resumed, isResumed, rfl⟩
      rcases Monitor.resume_eq_some_iff.mp isResumed with ⟨awake, free, rfl⟩
      exact invariant.enter free (Bool.eq_false_iff.mp awake)
  | leaving =>
      rw [phase] at enabled
      rcases Option.some.inj enabled with rfl
      exact invariant.leave phase
  | polling =>
      rw [phase] at enabled knows
      rcases Option.some.inj enabled with rfl
      refine invariant.move (by rw [phase]; nofun) ?_ ?_ ?_
      · split <;> nofun
      · split <;> nofun
      · split
        · trivial
        · next running =>
            rcases knows with isSet | quit
            · exact isSet
            · exact absurd quit running
  | receiving =>
      rw [phase] at enabled knows
      rcases Option.some.inj enabled with rfl
      refine invariant.move (by rw [phase]; nofun) ?_ ?_ ?_
      · split <;> nofun
      · split <;> nofun
      · split
        · exact .inl knows
        · exact knows
  | processing left =>
      rw [phase] at enabled knows
      cases left with
      | zero =>
          rcases Option.some.inj enabled with rfl
          exact invariant.move (by rw [phase]; nofun) nofun nofun (.inl knows)
      | succ left =>
          dsimp only at enabled
          split at enabled
          · next unset => exact absurd unset knows
          · rcases Option.some.inj enabled with rfl
            exact invariant.move (by rw [phase]; nofun) nofun nofun knows
  | thrown =>
      rw [phase] at enabled
      cases enabled
  | finished =>
      rw [phase] at enabled
      cases enabled

/-! ### Steps of a registration -/

/-- A step of a registration changes who is inside for that call only. -/
theorem inside_update {call : Fin calls} {phase : Registrar}
    {party : Party calls}
    (isInside : Inside { handshake with
      registrar := Function.update handshake.registrar call phase } party) :
    (party = .registrar call ∧ (phase = .locked ∨ phase = .notified)) ∨
      (party ≠ .registrar call ∧ Inside handshake party) := by
  cases party with
  | receiver => exact .inr ⟨nofun, isInside⟩
  | registrar other =>
      by_cases same : other = call
      · subst same
        dsimp only [Inside] at isInside
        rw [Function.update_self] at isInside
        exact .inl ⟨rfl, isInside⟩
      · dsimp only [Inside] at isInside
        rw [Function.update_of_ne same] at isInside
        refine .inr ⟨?_, isInside⟩
        intro equal
        exact same (Party.registrar.inj equal)

theorem toNotify_update {call : Fin calls} {phase : Registrar}
    (isToNotify : ToNotify phase)
    (others : ∀ other, ToNotify (handshake.registrar other))
    (other : Fin calls) :
    ToNotify (Function.update handshake.registrar call phase other) := by
  by_cases same : other = call
  · subst same
    rw [Function.update_self]
    exact isToNotify
  · rw [Function.update_of_ne same]
    exact others other

theorem Invariant.store (invariant : Invariant forceQuit handshake)
    (rxCallback : Callback) (call : Fin calls) :
    Invariant forceQuit { handshake with
      rxCallback := some rxCallback
      registrar := Function.update handshake.registrar call .stored } where
  excludes := by
    refine invariant.excludes.keep rfl ?_
    intro party isInside
    rcases inside_update isInside with ⟨-, locked | notified⟩ | ⟨-, before⟩
    · cases locked
    · cases notified
    · exact before
  blocked := invariant.blocked
  stored _ _ := Option.some_ne_none rxCallback
  knows := invariant.knows.store rxCallback
  toNotify waits := toNotify_update trivial (invariant.toNotify waits)

theorem Invariant.lock (invariant : Invariant forceQuit handshake)
    {call : Fin calls} (stored : handshake.registrar call = .stored)
    (free : handshake.callbackMutex.owner = none) :
    Invariant forceQuit { handshake with
      callbackMutex :=
        ⟨some (.registrar call), handshake.callbackMutex.blocked⟩
      registrar := Function.update handshake.registrar call .locked } where
  excludes := by
    refine invariant.excludes.enter free rfl ?_
    intro party isInside
    rcases inside_update isInside with ⟨same, -⟩ | ⟨-, before⟩
    · exact .inl same
    · exact .inr before
  blocked := invariant.blocked
  stored _ _ := invariant.stored call (by rw [stored]; nofun)
  knows := invariant.knows
  toNotify waits := toNotify_update trivial (invariant.toNotify waits)

theorem Invariant.notify (invariant : Invariant forceQuit handshake)
    {call : Fin calls} (locked : handshake.registrar call = .locked)
    (notifiedSinceQuit : Bool) :
    Invariant forceQuit { handshake with
      callbackMutex := handshake.callbackMutex.notifyAll
      registrar := Function.update handshake.registrar call .notified
      notifiedSinceQuit := notifiedSinceQuit } where
  excludes := by
    refine invariant.excludes.keep rfl ?_
    intro party isInside
    rcases inside_update isInside with ⟨rfl, -⟩ | ⟨-, before⟩
    · exact .inl locked
    · exact before
  blocked asleep := by cases asleep
  stored _ _ := invariant.stored call (by rw [locked]; nofun)
  knows := invariant.knows
  toNotify := by
    intro waits other
    rcases waits with blocking | asleep
    · -- the receive thread cannot be about to block: the call has its mutex
      have receiverInside : Inside handshake .receiver := by
        rw [Inside, blocking]
        trivial
      have callInside : Inside handshake (.registrar call) := .inl locked
      cases invariant.excludes.unique receiverInside callInside
    · cases asleep

theorem Invariant.unlock (invariant : Invariant forceQuit handshake)
    {call : Fin calls} (notified : handshake.registrar call = .notified) :
    Invariant forceQuit { handshake with
      callbackMutex := handshake.callbackMutex.unlock
      registrar := Function.update handshake.registrar call .returned } where
  excludes := by
    have wasInside : Inside handshake (.registrar call) := .inr notified
    refine invariant.excludes.leave wasInside ?_
    intro party isInside
    rcases inside_update isInside with ⟨-, locked | notified⟩ | ⟨other, before⟩
    · cases locked
    · cases notified
    · exact ⟨before, other⟩
  blocked := invariant.blocked
  stored _ _ := invariant.stored call (by rw [notified]; nofun)
  knows := invariant.knows
  toNotify waits := by
    have toNotify := invariant.toNotify waits call
    rw [notified] at toNotify
    cases toNotify

theorem invariant_register (invariant : Invariant forceQuit handshake)
    {rxCallback : Callback} {call : Fin calls}
    (enabled : handshake.register forceQuit rxCallback call = some after) :
    Invariant forceQuit after := by
  rw [Handshake.register] at enabled
  cases phase : handshake.registrar call with
  | called =>
      rw [phase] at enabled
      rcases Option.some.inj enabled with rfl
      exact invariant.store rxCallback call
  | stored =>
      rw [phase] at enabled
      rcases Option.map_eq_some_iff.mp enabled with ⟨locked, isLocked, rfl⟩
      rcases Monitor.lock_eq_some_iff.mp isLocked with ⟨free, rfl⟩
      exact invariant.lock phase free
  | locked =>
      rw [phase] at enabled
      rcases Option.some.inj enabled with rfl
      exact invariant.notify phase _
  | notified =>
      rw [phase] at enabled
      rcases Option.some.inj enabled with rfl
      exact invariant.unlock phase
  | returned =>
      rw [phase] at enabled
      cases enabled

theorem not_asleep_of_wake (handshake : Handshake Callback calls) :
    ¬ Asleep { handshake with
      callbackMutex := ⟨handshake.callbackMutex.owner,
        Function.update handshake.callbackMutex.blocked .receiver false⟩ } := by
  intro asleep
  dsimp only [Asleep] at asleep
  rw [Function.update_self] at asleep
  cases asleep

theorem Invariant.wake (invariant : Invariant forceQuit handshake)
    (asleep : Asleep handshake) :
    Invariant forceQuit { handshake with
      callbackMutex := ⟨handshake.callbackMutex.owner,
        Function.update handshake.callbackMutex.blocked .receiver false⟩ } where
  excludes := invariant.excludes.keep rfl fun _ isInside => isInside
  blocked stillAsleep := absurd stillAsleep (not_asleep_of_wake handshake)
  stored := invariant.stored
  knows := invariant.knows
  toNotify := by
    have elsewhere : handshake.receiver ≠ .blocking := by
      rw [invariant.blocked asleep]
      nofun
    exact toNotify_of_awake elsewhere (not_asleep_of_wake handshake)

theorem invariant_handshake (invariant : Invariant forceQuit handshake)
    {request : Fin calls → Callback} {event : Handshake.Event calls}
    (enabled : handshake.next forceQuit request event = some after) :
    Invariant forceQuit after := by
  cases event with
  | receive burst => exact invariant_receive invariant enabled
  | wake =>
      rcases Option.map_eq_some_iff.mp enabled with ⟨woken, isWoken, rfl⟩
      rcases Monitor.wake_eq_some_iff.mp isWoken with ⟨asleep, rfl⟩
      exact invariant.wake asleep
  | register call => exact invariant_register invariant enabled

end Thread

/-! ## All receive threads -/

variable {threads : Nat} {calls : Fin threads → Nat}
  {request : (thread : Fin threads) → Fin (calls thread) → Callback}

theorem destroy_eq_some {state after : State Callback calls}
    (enabled : destroy state = some after) :
    after.handshake = state.handshake ∧
      (after.forceQuit = state.forceQuit ∨ after.forceQuit = true) := by
  rw [destroy] at enabled
  split at enabled
  · split at enabled
    · rcases Option.some.inj enabled with rfl
      exact ⟨rfl, .inl rfl⟩
    · cases enabled
  · rcases Option.some.inj enabled with rfl
    exact ⟨rfl, .inr rfl⟩
  · split at enabled
    · rcases Option.some.inj enabled with rfl
      exact ⟨rfl, .inl rfl⟩
    · cases enabled
  · cases enabled

theorem invariant_next {state after : State Callback calls}
    {event : Event calls}
    (invariant : ∀ thread, Invariant state.forceQuit (state.handshake thread))
    (enabled : next request state event = some after) (thread : Fin threads) :
    Invariant after.forceQuit (after.handshake thread) := by
  cases event with
  | step stepping event =>
      rcases Option.map_eq_some_iff.mp enabled with ⟨handshake, stepped, rfl⟩
      have kept := invariant_handshake (invariant stepping) stepped
      have all := (Function.forall_update_iff state.handshake
        fun _ handshake => Invariant state.forceQuit handshake).mpr
          ⟨kept, fun other _ => invariant other⟩
      exact all thread
  | triggerShutdown =>
      rcases Option.some.inj enabled with rfl
      exact (invariant thread).quit
  | destroy =>
      rcases destroy_eq_some enabled with ⟨same, kept | quit⟩
      · rw [same, kept]
        exact invariant thread
      · rw [same, quit]
        exact (invariant thread).quit

theorem invariant_of_reachable {state : State Callback calls}
    (reachable : (callbacks request).Reachable state) (thread : Fin threads) :
    Invariant state.forceQuit (state.handshake thread) := by
  refine reachable.invariant
    (fun state => ∀ thread,
      Invariant state.forceQuit (state.handshake thread))
    (fun _ => invariant_start) ?_ thread
  intro before event after invariant _ enabled
  exact invariant_next invariant enabled

/-- In every reachable state the receive threads call stored functions only,
and no thread is asleep for which a registration has returned. -/
theorem callbacks_handed_over
    (request : (thread : Fin threads) → Fin (calls thread) → Callback)
    (state : State Callback calls)
    (reachable : (callbacks request).Reachable state) (thread : Fin threads) :
    (state.handshake thread).receiver ≠ .thrown ∧
      (∀ left, (state.handshake thread).receiver = .processing left →
        (state.handshake thread).rxCallback ≠ none) ∧
      ∀ call, (state.handshake thread).registrar call = .returned →
        ¬ Asleep (state.handshake thread) := by
  have invariant := invariant_of_reachable reachable thread
  have knows := invariant.knows
  refine ⟨?_, ?_, ?_⟩
  · intro thrown
    rw [thrown] at knows
    exact knows
  · intro left processing
    rw [processing] at knows
    exact knows
  · intro call returned asleep
    have toNotify := invariant.toNotify (.inr asleep) call
    rw [returned] at toNotify
    exact toNotify

def registeredRun : List (Event fun _ : Fin 1 => 1) :=
  [.receive 0, .receive 0, .receive 0, .receive 0, .register 0, .register 0,
    .register 0, .register 0, .receive 0, .receive 0, .receive 0, .receive 0,
    .receive 0, .receive 1].map fun event => .step 0 event

theorem callbacks_handed_over_sample :
    ∃ state : State Unit fun _ : Fin 1 => 1,
      (state.handshake 0).registrar 0 = .returned ∧
        (state.handshake 0).receiver = .processing 1 ∧
        (state.handshake 0).rxCallback ≠ none ∧
        ¬ Asleep (state.handshake 0) := by
  have runs : ∃ state : State Unit fun _ : Fin 1 => 1,
      (callbacks fun _ _ => ()).run start registeredRun = some state ∧
        (state.handshake 0).registrar 0 = .returned ∧
        (state.handshake 0).receiver = .processing 1 := ⟨_, rfl, rfl, rfl⟩
  rcases runs with ⟨state, run, returned, processing⟩
  have reachable : (callbacks fun _ _ => ()).Reachable state :=
    Transition.leads_of_run (fun _ _ _ => trivial) run
  have handed := callbacks_handed_over _ state reachable 0
  exact ⟨state, returned, processing, handed.2.1 1 processing,
    handed.2.2 0 returned⟩

end PacketFilter.Contracts.Callbacks
