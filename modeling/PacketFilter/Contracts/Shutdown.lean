import PacketFilter.Contracts.Callbacks

/-! # Shutdown contract

`trigger_shutdown` sets `force_quit_` and notifies nobody. A receive thread
that sleeps until its callback is registered is woken by the registration, and
by nothing else.
-/

namespace PacketFilter.Contracts.Shutdown

open Software.Callbacks Contracts.Callbacks

variable {Callback : Type}

/-! ## One receive thread before the shutdown -/

section Thread

variable {calls : Nat} {request : Fin calls → Callback}

def Leads (request : Fin calls → Callback) :
    Handshake Callback calls → Handshake Callback calls → Prop :=
  (Handshake.transition false request).Leads fun _ _ => True

def Finishes (request : Fin calls → Callback) (call : Fin calls)
    (handshake : Handshake Callback calls) : Prop :=
  ∃ after, Leads request handshake after ∧
    after.callbackMutex.owner = none ∧ after.registrar call = .returned ∧
    ∀ other, other ≠ call → after.registrar other = handshake.registrar other

theorem finishes_of_step {call : Fin calls}
    {handshake middle : Handshake Callback calls}
    (enabled : handshake.register false (request call) call = some middle)
    (others : ∀ other, other ≠ call →
      middle.registrar other = handshake.registrar other)
    (finishes : Finishes request call middle) :
    Finishes request call handshake := by
  rcases finishes with ⟨after, leads, free, returned, unchanged⟩
  refine ⟨after, ?_, free, returned, ?_⟩
  · exact Transition.Leads.next (.register call) trivial enabled leads
  · intro other different
    rw [unchanged other different, others other different]

theorem finishes_of_notified {call : Fin calls}
    {handshake : Handshake Callback calls}
    (phase : handshake.registrar call = .notified) :
    Finishes request call handshake := by
  refine ⟨{ handshake with
    callbackMutex := handshake.callbackMutex.unlock
    registrar := Function.update handshake.registrar call .returned },
    ?_, rfl, Function.update_self _ _ _, ?_⟩
  · refine Transition.Leads.next (.register call) trivial ?_ .refl
    change handshake.register false (request call) call = _
    rw [Handshake.register, phase]
  · intro other different
    exact Function.update_of_ne different _ _

theorem finishes_of_locked {call : Fin calls}
    {handshake : Handshake Callback calls}
    (phase : handshake.registrar call = .locked) :
    Finishes request call handshake := by
  have enabled : handshake.register false (request call) call =
      some { handshake with
        callbackMutex := handshake.callbackMutex.notifyAll
        registrar := Function.update handshake.registrar call .notified
        notifiedSinceQuit := handshake.notifiedSinceQuit || false } := by
    rw [Handshake.register, phase]
  refine finishes_of_step enabled ?_ ?_
  · intro other different
    exact Function.update_of_ne different _ _
  · exact finishes_of_notified (Function.update_self _ _ _)

theorem finishes_of_stored {call : Fin calls}
    {handshake : Handshake Callback calls}
    (phase : handshake.registrar call = .stored)
    (free : handshake.callbackMutex.owner = none) :
    Finishes request call handshake := by
  have enabled : handshake.register false (request call) call =
      some { handshake with
        callbackMutex :=
          ⟨some (.registrar call), handshake.callbackMutex.blocked⟩
        registrar := Function.update handshake.registrar call .locked } := by
    rw [Handshake.register, phase]
    exact Option.map_eq_some_iff.mpr
      ⟨_, Monitor.lock_eq_some_iff.mpr ⟨free, rfl⟩, rfl⟩
  refine finishes_of_step enabled ?_ ?_
  · intro other different
    exact Function.update_of_ne different _ _
  · exact finishes_of_locked (Function.update_self _ _ _)

theorem finishes_of_called {call : Fin calls}
    {handshake : Handshake Callback calls}
    (phase : handshake.registrar call = .called)
    (free : handshake.callbackMutex.owner = none) :
    Finishes request call handshake := by
  have enabled : handshake.register false (request call) call =
      some { handshake with
        rxCallback := some (request call)
        registrar := Function.update handshake.registrar call .stored } := by
    rw [Handshake.register, phase]
  refine finishes_of_step enabled ?_ ?_
  · intro other different
    exact Function.update_of_ne different _ _
  · exact finishes_of_stored (Function.update_self _ _ _) free

theorem leads_returned (request : Fin calls → Callback) :
    ∃ after, Leads request .start after ∧
      ∀ call, after.registrar call = .returned := by
  have some_returned : ∀ some : List (Fin calls), some.Nodup →
      ∃ after, Leads request .start after ∧
        after.callbackMutex.owner = none ∧
        ∀ call, after.registrar call =
          if call ∈ some then .returned else .called := by
    intro some distinct
    induction some with
    | nil =>
        exact ⟨_, .refl, rfl, fun _ => (if_neg List.not_mem_nil).symm⟩
    | cons call rest induction =>
        rw [List.nodup_cons] at distinct
        rcases induction distinct.2 with ⟨before, leads, free, phases⟩
        have isCalled : before.registrar call = .called := by
          rw [phases, if_neg distinct.1]
        have finishes : Finishes request call before :=
          finishes_of_called isCalled free
        rcases finishes with
          ⟨after, continued, freeAfter, returned, unchanged⟩
        refine ⟨after, .trans leads continued, freeAfter, ?_⟩
        intro other
        by_cases same : other = call
        · subst same
          simp [returned]
        · rw [unchanged other same, phases]
          simp [same]
  rcases some_returned _ (List.nodup_finRange calls) with
    ⟨after, leads, -, phases⟩
  refine ⟨after, leads, ?_⟩
  intro call
  rw [phases, if_pos (List.mem_finRange call)]

theorem leads_asleep (request : Fin calls → Callback) :
    ∃ after, Leads request .start after ∧ Asleep after ∧
      after.notifiedSinceQuit = false := by
  refine ⟨{ Handshake.start with
    receiver := .blocked
    callbackMutex := Monitor.idle.wait .receiver }, ?_,
    Monitor.blocked_wait _ _, rfl⟩
  apply Transition.Leads.next (.receive 0) trivial rfl
  apply Transition.Leads.next (.receive 0) trivial rfl
  apply Transition.Leads.next (.receive 0) trivial rfl
  apply Transition.Leads.next (.receive 0) trivial rfl
  exact .refl

theorem leads_settled (request : Fin calls → Callback) :
    ∃ after, Leads request .start after ∧
      (∀ call, after.registrar call = .returned) ∧
      (calls = 0 → Asleep after ∧ after.notifiedSinceQuit = false) := by
  by_cases unregistered : calls = 0
  · rcases leads_asleep request with ⟨after, leads, asleep⟩
    subst unregistered
    exact ⟨after, leads, fun call => call.elim0, fun _ => asleep⟩
  · rcases leads_returned request with ⟨after, leads, returned⟩
    exact ⟨after, leads, returned, fun none => absurd none unregistered⟩

end Thread

/-! ## All receive threads -/

variable {threads : Nat} {calls : Fin threads → Nat}

/-- The shutdown waits for a receive thread that is asleep, was not notified
after `force_quit_` was set, and is not going to be notified. -/
def Stranded (state : State Callback calls) : Prop :=
  state.forceQuit = true ∧ state.destructor = .joining ∧
    ∃ thread, Asleep (state.handshake thread) ∧
      (state.handshake thread).notifiedSinceQuit = false ∧
      ∀ call, ¬ ToNotify ((state.handshake thread).registrar call)

def running (handshakes : (thread : Fin threads) →
    Handshake Callback (calls thread)) : State Callback calls :=
  ⟨false, handshakes, .notCalled⟩

theorem leads_running
    (request : (thread : Fin threads) → Fin (calls thread) → Callback)
    (handshakes : (thread : Fin threads) → Handshake Callback (calls thread))
    (thread : Fin threads) (after : Handshake Callback (calls thread))
    (leads : Leads (request thread) (handshakes thread) after) :
    (callbacks request).Leads (fun _ _ => True) (running handshakes)
      (running (Function.update handshakes thread after)) := by
  have step : ∀ before after,
      (Handshake.transition false (request thread)).Step (fun _ _ => True)
        before after →
      (callbacks request).Step (fun _ _ => True)
        (running (Function.update handshakes thread before))
        (running (Function.update handshakes thread after)) := by
    intro before after step
    rcases step with ⟨event, -, enabled⟩
    refine ⟨.step thread event, trivial, ?_⟩
    change Option.map _ ((Function.update handshakes thread before thread).next
      false (request thread) event) = _
    rw [Function.update_self]
    change Handshake.next false (request thread) before event = _ at enabled
    rw [enabled, Option.map_some, State.set, running, running,
      Function.update_idem]
  have lifted := Transition.Leads.lift
    (fun handshake => running (Function.update handshakes thread handshake))
    step leads
  rw [Function.update_eq_self] at lifted
  exact lifted

theorem exists_stranded
    (request : (thread : Fin threads) → Fin (calls thread) → Callback)
    {thread : Fin threads} (unregistered : calls thread = 0) :
    ∃ state, (callbacks request).Reachable state ∧ Stranded state := by
  have settled := fun thread => leads_settled (request thread)
  choose handshakes each returned asleep using settled
  have settles : (callbacks request).Leads (fun _ _ => True) start
      (running handshakes) :=
    Transition.leads_family running
      (fun thread => Leads (request thread)) (leads_running request) each
  have destroys : (callbacks request).Leads (fun _ _ => True)
      (running handshakes) ⟨true, handshakes, .joining⟩ := by
    refine Transition.Leads.next .destroy trivial (if_pos returned) ?_
    exact Transition.Leads.next .destroy trivial rfl .refl
  refine ⟨⟨true, handshakes, .joining⟩, .trans settles destroys, rfl, rfl,
    thread, (asleep thread unregistered).1, (asleep thread unregistered).2, ?_⟩
  intro call
  rw [returned thread call]
  exact id

/-- The shutdown strands no receive thread, in any run, exactly when
`register_callback` is called for every one of them. -/
theorem never_stranded_iff
    (request : (thread : Fin threads) → Fin (calls thread) → Callback) :
    (∀ state, (callbacks request).Reachable state → ¬ Stranded state) ↔
      ∀ thread, 0 < calls thread := by
  constructor
  · intro never thread
    rw [Nat.pos_iff_ne_zero]
    intro unregistered
    rcases exists_stranded request unregistered with
      ⟨state, reachable, stranded⟩
    exact never state reachable stranded
  · intro registered state reachable stranded
    rcases stranded with ⟨-, -, thread, asleep, -, noneToNotify⟩
    have invariant := invariant_of_reachable reachable thread
    exact noneToNotify ⟨0, registered thread⟩
      (invariant.toNotify (.inr asleep) ⟨0, registered thread⟩)

def firstRegistered : Fin 2 → Nat := fun thread => if thread = 0 then 1 else 0

theorem not_never_stranded :
    ¬ ∀ (threads : Nat) (calls : Fin threads → Nat)
      (request : (thread : Fin threads) → Fin (calls thread) → Unit) state,
      (callbacks request).Reachable state → ¬ Stranded state := by
  intro never
  have exists_state : ∃ state : State Unit firstRegistered,
      (callbacks fun _ _ => ()).Reachable state ∧ Stranded state :=
    exists_stranded _ (rfl : firstRegistered 1 = 0)
  rcases exists_state with ⟨state, reachable, stranded⟩
  exact never 2 _ _ state reachable stranded

end PacketFilter.Contracts.Shutdown
