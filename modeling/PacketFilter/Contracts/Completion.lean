import PacketFilter.Contracts.ReceiveThreads
import PacketFilter.Contracts.Registration
import PacketFilter.Contracts.Shutdown

/-! # Completion contract

Once `force_quit_` is set, every step of a receive thread, of a registration
and of the destructor takes the shutdown closer to its end. Whether there always
is a step depends on the registrations.
-/

namespace PacketFilter.Contracts.Completion

open Software Software.Callbacks Contracts.Callbacks ReceiveThreads

variable {Callback : Type}

/-! ## One receive thread -/

section Thread

variable {calls : Nat} {forceQuit : Bool}
  {handshake after : Handshake Callback calls}

def Held (handshake : Handshake Callback calls) : Prop :=
  ∀ party, handshake.callbackMutex.owner = some party → Inside handshake party

theorem held_of_free (free : handshake.callbackMutex.owner = none) :
    Held handshake := by
  intro party owned
  rw [free] at owned
  cases owned

theorem held_of_owner {owner : Party calls}
    (owned : handshake.callbackMutex.owner = some owner)
    (inside : Inside handshake owner) : Held handshake := by
  intro party isOwner
  rw [owned] at isOwner
  rcases Option.some.inj isOwner with rfl
  exact inside

theorem Held.move (held : Held handshake) {receiver : Receiver}
    (stays : HoldsMutex handshake.receiver → HoldsMutex receiver) :
    Held { handshake with receiver := receiver } := by
  intro party owned
  have inside := held party owned
  cases party with
  | receiver => exact stays inside
  | registrar call => exact inside

theorem held_receive (held : Held handshake)
    {burst : Fin (Handshake.burstSize + 1)}
    (enabled : handshake.receive forceQuit burst = some after) : Held after := by
  cases receives_of_receive enabled with
  | enter waits awake free => exact held_of_owner rfl trivial
  | wait blocking => exact held_of_free rfl
  | leave leaving => exact held_of_free rfl
  | move moves =>
      apply held.move
      generalize handshake.receiver = receiver at moves
      cases moves with
      | testQuit => split <;> exact id
      | testCallback => split <;> exact id
      | polling => exact False.elim
      | receiving => exact False.elim
      | processed => exact False.elim
      | called isSet => exact False.elim
      | threw unset => exact False.elim

theorem held_register (held : Held handshake) {rxCallback : Callback}
    {call : Fin calls}
    (enabled : handshake.register forceQuit rxCallback call = some after) :
    Held after := by
  cases registers_of_register enabled with
  | store called =>
      intro party owned
      have inside := held party owned
      cases party with
      | receiver => exact inside
      | registrar other =>
          have different : other ≠ call := by
            intro same
            subst same
            rw [Inside, called] at inside
            rcases inside with locked | notified
            · cases locked
            · cases notified
          dsimp only [Inside]
          rw [Function.update_of_ne different]
          exact inside
  | lock stored free =>
      exact held_of_owner rfl (.inl (Function.update_self _ _ _))
  | notify locked =>
      intro party owned
      have inside := held party owned
      cases party with
      | receiver => exact inside
      | registrar other =>
          by_cases same : other = call
          · subst same
            exact .inr (Function.update_self _ _ _)
          · dsimp only [Inside]
            rw [Function.update_of_ne same]
            exact inside
  | unlock notified => exact held_of_free rfl

/-- How many steps are left to a receive thread that is told to quit. -/
def receiverLeft : Receiver → Nat
  | .finished | .thrown => 0
  | .polling => 1
  | .leaving => 2
  | .processing left => left + 2
  | .testQuit => 3
  | .launched | .blocked => 4
  | .blocking => 6
  | .testCallback => 7
  | .receiving => Handshake.burstSize + 3

def registrarLeft : Registrar → Nat
  | .called => 4
  | .stored => 3
  | .locked => 2
  | .notified => 1
  | .returned => 0

def sleepLeft (monitor : Monitor (Party calls)) : Nat :=
  if monitor.blocked .receiver then 1 else 0

def handshakeLeft (handshake : Handshake Callback calls) : Nat :=
  receiverLeft handshake.receiver + sleepLeft handshake.callbackMutex +
    ∑ call, registrarLeft (handshake.registrar call)

theorem moves_decreases {rxCallback : Option Callback} {burst : Nat}
    (bounded : burst ≤ Handshake.burstSize) {receiver reached : Receiver}
    (moves : Moves true rxCallback burst receiver reached) :
    receiverLeft reached < receiverLeft receiver := by
  cases moves with
  | testQuit => decide
  | testCallback =>
      split
      · decide
      · decide
  | polling => decide
  | receiving =>
      split
      · decide
      · rw [receiverLeft, receiverLeft]
        omega
  | processed => decide
  | called isSet => exact Nat.lt_succ_self _
  | threw unset => exact Nat.succ_pos _

theorem receive_decreases {burst : Fin (Handshake.burstSize + 1)}
    (enabled : handshake.receive true burst = some after) :
    after.registrar = handshake.registrar ∧
      receiverLeft after.receiver + sleepLeft after.callbackMutex <
        receiverLeft handshake.receiver + sleepLeft handshake.callbackMutex := by
  cases receives_of_receive enabled with
  | enter waits awake free =>
      have less : receiverLeft .testQuit < receiverLeft handshake.receiver := by
        rcases waits with phase | phase
        · rw [phase]
          decide
        · rw [phase]
          decide
      exact ⟨rfl, Nat.add_lt_add_right less _⟩
  | move moves =>
      have bounded : burst.val ≤ Handshake.burstSize :=
        Nat.lt_succ_iff.mp burst.isLt
      exact ⟨rfl, Nat.add_lt_add_right (moves_decreases bounded moves) _⟩
  | wait phase =>
      have asleep : sleepLeft (handshake.callbackMutex.wait .receiver) = 1 :=
        if_pos (Monitor.blocked_wait _ _)
      refine ⟨rfl, ?_⟩
      dsimp only
      rw [asleep, phase]
      exact Nat.lt_add_right _ (by decide)
  | leave phase =>
      have less : receiverLeft .polling < receiverLeft .leaving := by decide
      rw [phase]
      exact ⟨rfl, Nat.add_lt_add_right less _⟩

theorem sum_registrar_lt {call : Fin calls} {phase : Registrar}
    (less : registrarLeft phase < registrarLeft (handshake.registrar call)) :
    ∑ other, registrarLeft (Function.update handshake.registrar call phase other) <
      ∑ other, registrarLeft (handshake.registrar other) :=
  Transition.sum_update_lt (fun _ => registrarLeft) handshake.registrar less

theorem register_decreases {rxCallback : Callback} {call : Fin calls}
    (enabled : handshake.register forceQuit rxCallback call = some after) :
    after.receiver = handshake.receiver ∧
      sleepLeft after.callbackMutex ≤ sleepLeft handshake.callbackMutex ∧
      ∑ other, registrarLeft (after.registrar other) <
        ∑ other, registrarLeft (handshake.registrar other) := by
  cases registers_of_register enabled with
  | store phase => exact ⟨rfl, le_rfl, sum_registrar_lt (by rw [phase]; decide)⟩
  | lock phase free =>
      exact ⟨rfl, le_rfl, sum_registrar_lt (by rw [phase]; decide)⟩
  | notify phase =>
      exact ⟨rfl, Nat.zero_le _, sum_registrar_lt (by rw [phase]; decide)⟩
  | unlock phase => exact ⟨rfl, le_rfl, sum_registrar_lt (by rw [phase]; decide)⟩

variable {request : Fin calls → Callback} {event : Handshake.Event calls}

theorem held_next (held : Held handshake)
    (enabled : handshake.next forceQuit request event = some after) :
    Held after := by
  cases event with
  | receive burst => exact held_receive held enabled
  | wake =>
      rcases Option.map_eq_some_iff.mp enabled with ⟨woken, isWoken, rfl⟩
      rcases Monitor.wake_eq_some_iff.mp isWoken with ⟨-, rfl⟩
      exact held
  | register call => exact held_register held enabled

/-- After the quit, every step of a thread or of a registration for it is one
of finitely many. -/
theorem next_decreases
    (enabled : handshake.next true request event = some after) :
    handshakeLeft after < handshakeLeft handshake := by
  cases event with
  | receive burst =>
      rcases receive_decreases enabled with ⟨same, less⟩
      rw [handshakeLeft, handshakeLeft, same]
      exact Nat.add_lt_add_right less _
  | wake =>
      rcases Option.map_eq_some_iff.mp enabled with ⟨woken, isWoken, rfl⟩
      rcases Monitor.wake_eq_some_iff.mp isWoken with ⟨asleep, rfl⟩
      have isAwake : sleepLeft ⟨handshake.callbackMutex.owner,
          Function.update handshake.callbackMutex.blocked .receiver false⟩ =
            0 := if_neg (not_asleep_of_wake handshake)
      have wasAsleep : sleepLeft handshake.callbackMutex = 1 := if_pos asleep
      rw [handshakeLeft, handshakeLeft, isAwake, wasAsleep]
      exact Nat.add_lt_add_right (Nat.add_lt_add_left Nat.zero_lt_one _) _
  | register call =>
      rcases register_decreases enabled with ⟨same, sleeps, less⟩
      rw [handshakeLeft, handshakeLeft, same]
      omega

theorem awake_of_receive {burst : Fin (Handshake.burstSize + 1)}
    (isBlocked : handshake.receiver = .blocked)
    (enabled : handshake.receive forceQuit burst = some after) :
    ¬ Asleep handshake := by
  cases receives_of_receive enabled with
  | enter waits awake free => exact awake isBlocked
  | move moves =>
      rw [isBlocked] at moves
      cases moves
  | wait blocking =>
      rw [isBlocked] at blocking
      cases blocking
  | leave leaving =>
      rw [isBlocked] at leaving
      cases leaving

def Through (handshake : Handshake Callback calls) : Prop :=
  handshake.receiver = .finished ∧
    ∀ call, handshake.registrar call = .returned

theorem receive_enabled (goesOn : handshake.receiver ≠ .finished)
    (sound : handshake.receiver ≠ .thrown)
    (locks : handshake.receiver = .launched ∨ handshake.receiver = .blocked →
      handshake.callbackMutex.owner = none)
    (awake : ¬ Asleep handshake) :
    (handshake.receive forceQuit 0).isSome := by
  rw [Handshake.receive.eq_def]
  cases phase : handshake.receiver with
  | launched =>
      dsimp only
      rw [Monitor.lock, locks (.inl phase)]
      rfl
  | blocked =>
      have resumed := Monitor.resume_eq_some_iff.mpr
        ⟨Bool.eq_false_iff.mpr awake, locks (.inr phase), rfl⟩
      dsimp only
      rw [resumed]
      rfl
  | processing left =>
      cases left with
      | zero => rfl
      | succ left =>
          dsimp only
          cases handshake.rxCallback <;> rfl
  | thrown => exact absurd phase sound
  | finished => exact absurd phase goesOn
  | testQuit => rfl
  | testCallback => rfl
  | blocking => rfl
  | leaving => rfl
  | polling => rfl
  | receiving => rfl

/-- A thread that a callback is registered for can go on without a wakeup that
nobody asked for. -/
theorem exists_enabled (invariant : Invariant forceQuit handshake)
    (held : Held handshake) (registered : 0 < calls)
    (notThrough : ¬ Through handshake) :
    ∃ event, event ≠ .wake ∧
      (handshake.next forceQuit request event).isSome := by
  have sound : handshake.receiver ≠ .thrown := by
    intro thrown
    have knows := invariant.knows
    rw [thrown] at knows
    exact knows
  cases owned : handshake.callbackMutex.owner with
  | some owner =>
      have inside := held owner owned
      cases owner with
      | registrar call =>
          refine ⟨.register call, by simp, ?_⟩
          change (handshake.register forceQuit (request call) call).isSome
          rw [Handshake.register]
          rcases inside with locked | notified
          · rw [locked]
            rfl
          · rw [notified]
            rfl
      | receiver =>
          -- the thread holds its mutex, so it neither sleeps nor waits for it
          refine ⟨.receive 0, by simp, ?_⟩
          have inside : HoldsMutex handshake.receiver := inside
          apply receive_enabled
          · intro finished
            rw [finished] at inside
            exact inside
          · exact sound
          · intro locks
            rcases locks with launched | blocked
            · rw [launched] at inside
              exact inside.elim
            · rw [blocked] at inside
              exact inside.elim
          · intro asleep
            rw [invariant.blocked asleep] at inside
            exact inside
  | none =>
      by_cases returned : ∀ call, handshake.registrar call = .returned
      · refine ⟨.receive 0, by simp, ?_⟩
        apply receive_enabled
        · intro finished
          exact notThrough ⟨finished, returned⟩
        · exact sound
        · intro _
          exact owned
        · intro asleep
          have toNotify := invariant.toNotify (.inr asleep) ⟨0, registered⟩
          rw [returned] at toNotify
          exact toNotify
      · rcases not_forall.mp returned with ⟨call, goesOn⟩
        refine ⟨.register call, by simp, ?_⟩
        change (handshake.register forceQuit (request call) call).isSome
        rw [Handshake.register]
        cases phase : handshake.registrar call with
        | called => rfl
        | stored =>
            dsimp only
            rw [Monitor.lock, owned]
            rfl
        | locked => rfl
        | notified => rfl
        | returned => exact absurd phase goesOn

end Thread

/-! ## All receive threads -/

section System

variable {threads : Nat} {calls : Fin threads → Nat}
  {request : (thread : Fin threads) → Fin (calls thread) → Callback}
  {state after : State Callback calls} {event : Event calls}

/-- What happens sooner or later if it stays enabled. -/
def Due : Event calls → Prop
  | .step _ .wake => False
  | .step _ (.receive _) => True
  | .step _ (.register _) => True
  | .triggerShutdown => False
  | .destroy => True

/-- What can happen. To trigger the shutdown again changes nothing. -/
def Possible (event : Event calls) : Prop :=
  event ≠ .triggerShutdown

theorem Due.possible (due : Due event) : Possible event := by
  intro isTrigger
  rw [isTrigger] at due
  exact due

def destructorLeft : Destructor → Nat
  | .notCalled => 3
  | .triggering => 2
  | .joining => 1
  | .joined => 0

def stateLeft (state : State Callback calls) : Nat :=
  ∑ thread, handshakeLeft (state.handshake thread) +
    destructorLeft state.destructor

def Completes (request : (thread : Fin threads) → Fin (calls thread) → Callback)
    (state : State Callback calls) : Prop :=
  (callbacks request).Inevitable Due Possible
    (fun state => state.destructor = .joined) state

theorem held_of_reachable (reachable : (callbacks request).Reachable state)
    (thread : Fin threads) : Held (state.handshake thread) := by
  refine reachable.invariant (fun state => Held (state.handshake thread))
    (held_of_free rfl) ?_
  intro before event after held _ enabled
  rcases handshake_next enabled thread with ⟨own, -, stepped⟩ | ⟨-, same⟩
  · exact held_next held stepped
  · rw [same]
    exact held

theorem destroy_decreases (enabled : destroy state = some after) :
    destructorLeft after.destructor < destructorLeft state.destructor := by
  rw [destroy] at enabled
  cases phase : state.destructor with
  | notCalled =>
      rw [phase] at enabled
      dsimp only at enabled
      split at enabled
      · rcases Option.some.inj enabled with rfl
        dsimp only
        split
        · decide
        · decide
      · cases enabled
  | triggering =>
      rw [phase] at enabled
      rcases Option.some.inj enabled with rfl
      exact Nat.lt_succ_self 1
  | joining =>
      rw [phase] at enabled
      dsimp only at enabled
      split at enabled
      · rcases Option.some.inj enabled with rfl
        exact Nat.zero_lt_one
      · cases enabled
  | joined =>
      rw [phase] at enabled
      cases enabled

theorem stateLeft_decreases (quit : state.forceQuit = true)
    (possible : Possible event) (enabled : next request state event = some after) :
    after.forceQuit = true ∧ stateLeft after < stateLeft state := by
  cases event with
  | step thread own =>
      rcases Option.map_eq_some_iff.mp enabled with ⟨handshake, stepped, rfl⟩
      rw [quit] at stepped
      refine ⟨quit, Nat.add_lt_add_right ?_ _⟩
      exact Transition.sum_update_lt (fun _ => handshakeLeft) state.handshake
        (next_decreases stepped)
  | triggerShutdown => exact absurd rfl possible
  | destroy =>
      rcases destroy_eq_some enabled with ⟨same, kept⟩
      refine ⟨?_, ?_⟩
      · rcases kept with kept | quits
        · exact kept.trans quit
        · exact quits
      · rw [stateLeft, stateLeft, same]
        exact Nat.add_lt_add_left (destroy_decreases enabled) _

theorem destroy_enabled (through : ∀ thread, Through (state.handshake thread))
    (notJoined : state.destructor ≠ .joined) : (destroy state).isSome := by
  rw [destroy]
  cases phase : state.destructor with
  | notCalled =>
      have returned : ∀ thread call,
          (state.handshake thread).registrar call = .returned :=
        fun thread => (through thread).2
      dsimp only
      rw [if_pos returned]
      rfl
  | triggering => rfl
  | joining =>
      have finished : ∀ thread, (state.handshake thread).receiver = .finished :=
        fun thread => (through thread).1
      dsimp only
      rw [if_pos finished]
      rfl
  | joined => exact absurd phase notJoined

theorem exists_due (registered : ∀ thread, 0 < calls thread)
    (reachable : (callbacks request).Reachable state)
    (notJoined : state.destructor ≠ .joined) :
    ∃ event, Due event ∧ ((callbacks request).next state event).isSome := by
  by_cases through : ∀ thread, Through (state.handshake thread)
  · exact ⟨.destroy, trivial, destroy_enabled through notJoined⟩
  · rcases not_forall.mp through with ⟨thread, notThrough⟩
    have goesOn : ∃ own, own ≠ .wake ∧ ((state.handshake thread).next
        state.forceQuit (request thread) own).isSome :=
      exists_enabled (invariant_of_reachable reachable thread)
        (held_of_reachable reachable thread) (registered thread) notThrough
    rcases goesOn with ⟨own, isDue, enabled⟩
    refine ⟨.step thread own, ?_, ?_⟩
    · cases own with
      | wake => exact absurd rfl isDue
      | receive burst => trivial
      | register call => trivial
    · rcases Option.isSome_iff_exists.mp enabled with ⟨handshake, stepped⟩
      change (Option.map _ _).isSome
      rw [stepped]
      rfl

/-- Nobody but a wakeup for no reason gets up a thread that is asleep and that
no callback is registered for. -/
theorem asleep_next {thread : Fin threads} (unregistered : calls thread = 0)
    (asleep : Asleep (state.handshake thread))
    (isBlocked : (state.handshake thread).receiver = .blocked) (due : Due event)
    (enabled : next request state event = some after) :
    Asleep (after.handshake thread) := by
  rcases handshake_next enabled thread with ⟨own, rfl, stepped⟩ | ⟨-, same⟩
  · cases own with
    | wake => exact due.elim
    | register call =>
        have bound := call.isLt
        omega
    | receive burst =>
        exact absurd asleep (awake_of_receive isBlocked stepped)
  · rw [same]
    exact asleep

theorem completes_of_registered (registered : ∀ thread, 0 < calls thread)
    (reachable : (callbacks request).Reachable state)
    (quit : state.forceQuit = true) : Completes request state := by
  refine Transition.inevitable_of_variant
    (fun state => (callbacks request).Reachable state ∧ state.forceQuit = true)
    stateLeft ?_ ?_ ⟨reachable, quit⟩
  · intro state holds notJoined
    exact exists_due registered holds.1 notJoined
  · intro state event after holds possible enabled
    rcases stateLeft_decreases holds.2 possible enabled with ⟨quits, less⟩
    exact ⟨⟨holds.1.tail enabled, quits⟩, less⟩

theorem registered_of_completes
    (completes : ∀ state, (callbacks request).Reachable state →
      state.forceQuit = true → Completes request state)
    (thread : Fin threads) : 0 < calls thread := by
  rw [Nat.pos_iff_ne_zero]
  intro unregistered
  rcases Shutdown.exists_stranded request unregistered with
    ⟨state, reachable, quit, -, sleeper, asleep, -, noneToNotify⟩
  have isUnregistered : calls sleeper = 0 := by
    by_contra registered
    have call : Fin (calls sleeper) := ⟨0, Nat.pos_of_ne_zero registered⟩
    exact noneToNotify call ((invariant_of_reachable reachable sleeper).toNotify
      (.inr asleep) call)
  refine Transition.not_inevitable
    (fun state => (callbacks request).Reachable state ∧
      Asleep (state.handshake sleeper)) (fun _ => Due.possible) ?_ ?_
    ⟨reachable, asleep⟩ (completes state reachable quit)
  · intro state holds joined
    have isBlocked := (invariant_of_reachable holds.1 sleeper).blocked holds.2
    rw [finished_of_joined holds.1 joined sleeper] at isBlocked
    cases isBlocked
  · intro state event after holds due enabled
    have isBlocked := (invariant_of_reachable holds.1 sleeper).blocked holds.2
    exact ⟨holds.1.tail enabled,
      asleep_next isUnregistered holds.2 isBlocked due enabled⟩

/-- Once `force_quit_` is set, the destructor returns, in whatever order threads
and registrations go on, exactly when `register_callback` is called for every
receive thread. -/
theorem completes_iff
    (request : (thread : Fin threads) → Fin (calls thread) → Callback) :
    (∀ state, (callbacks request).Reachable state → state.forceQuit = true →
        Completes request state) ↔
      ∀ thread, 0 < calls thread :=
  ⟨registered_of_completes, fun registered _ reachable quit =>
    completes_of_registered registered reachable quit⟩

end System

/-! ## main -/

def registrations (numThreads : BitVec 16) (thread : Nat) : Nat :=
  (List.range numThreads.toNat).count thread

def mainRequest (numThreads : BitVec 16) (threads : Nat)
    (rxCallback : Callback) (thread : Fin threads) :
    Fin (registrations numThreads thread.val) → Callback :=
  fun _ => rxCallback

theorem registrations_pos_iff (numThreads : BitVec 16) (threads : Nat) :
    (∀ thread : Fin threads, 0 < registrations numThreads thread.val) ↔
      threads ≤ numThreads.toNat := by
  simp only [registrations, List.count_pos_iff, List.mem_range]
  constructor
  · intro registered
    by_contra more
    have unregistered := registered ⟨numThreads.toNat, by omega⟩
    exact absurd unregistered (Nat.lt_irrefl _)
  · intro enough thread
    exact thread.isLt.trans_le enough

/-- When all loops can be launched, the server can always be shut down exactly
when the number of ports divides the number of threads asked for. -/
theorem main_completes_iff (eal : Eal) (remoteLaunch : BitVec 16 → Int)
    (numThreads : BitVec 16) (rxCallback : Callback) (threads : numThreads ≠ 0)
    (fits : roundedThreads numThreads.toNat eal.portNum.toNat < 2 ^ 16)
    (infos : ThreadInfos Callback)
    (started : initDpdk eal numThreads.toNat = .ok infos)
    (launches : ∀ lcoreId, remoteLaunch lcoreId = 0) :
    launch remoteLaunch infos = .ok () ∧
      ((∀ state,
          (callbacks (mainRequest numThreads infos.length rxCallback)).Reachable
            state → state.forceQuit = true →
          Completes (mainRequest numThreads infos.length rxCallback) state) ↔
        eal.portNum.toNat ∣ numThreads.toNat) := by
  have positive := (initDpdk_ok started).1
  have length : infos.length =
      roundedThreads numThreads.toNat eal.portNum.toNat := by
    rw [initDpdk_infos fits started, List.length_map, List.length_range]
  have enough := le_roundedThreads numThreads.toNat positive
  have divides := roundedThreads_eq_iff numThreads.toNat eal.portNum.toNat
  have registered := registrations_pos_iff numThreads infos.length
  rw [length] at registered
  have asked : numThreads.toNat ≠ 0 :=
    fun none => threads (BitVec.eq_of_toNat_eq none)
  have nonempty : infos ≠ [] := by
    rw [← List.length_pos_iff, length]
    omega
  refine ⟨launch_eq_ok launches nonempty, ?_, ?_⟩
  · intro completes
    have all := registered.mp (length ▸ registered_of_completes completes)
    exact divides.mp (Nat.le_antisymm all enough)
  · intro isDivided state reachable quit
    have all := registered.mpr (divides.mpr isDivided).le
    exact completes_of_registered (length ▸ all) reachable quit

theorem main_completes_iff_sample :
    launch (fun _ => 0) ((List.range 4).map fun i =>
        some (threadInfoAt 2 i : ThreadInfo Unit)) = .ok () ∧
      ((∀ state, (callbacks (mainRequest 4 4 ())).Reachable state →
          state.forceQuit = true → Completes (mainRequest 4 4 ()) state) ↔
        2 ∣ 4) :=
  main_completes_iff (workingEal 2) (fun _ => 0) 4 () (by decide) (by decide) _
    rfl (fun _ => rfl)

end PacketFilter.Contracts.Completion
