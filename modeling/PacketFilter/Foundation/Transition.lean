import Mathlib.Algebra.Order.BigOperators.Group.Finset
import Mathlib.Data.Fintype.Basic
import Mathlib.Logic.Relation

/-! # Transition systems

A system starts in one state and takes the events that are enabled, in any
order. An `allowed` predicate picks the events a run is restricted to.
-/

structure Transition (State : Type u) (Event : Type v) where
  start : State
  next : State → Event → Option State

namespace Transition

variable {State : Type u} {Event : Type v} (system : Transition State Event)
  (allowed : State → Event → Prop)

def Step (state after : State) : Prop :=
  ∃ event, allowed state event ∧ system.next state event = some after

def Leads : State → State → Prop :=
  Relation.ReflTransGen (system.Step allowed)

def Reached (state : State) : Prop :=
  system.Leads allowed system.start state

def Reachable (state : State) : Prop :=
  system.Reached (fun _ _ => True) state

/-- What the events lead to one after the other, if each is enabled in its
turn. -/
def run (state : State) (events : List Event) : Option State :=
  events.foldlM system.next state

variable {system allowed}

theorem Leads.next {state middle after : State} (event : Event)
    (isAllowed : allowed state event)
    (enabled : system.next state event = some middle)
    (leads : system.Leads allowed middle after) :
    system.Leads allowed state after :=
  Relation.ReflTransGen.head ⟨event, isAllowed, enabled⟩ leads

theorem Leads.trans {state middle after : State}
    (first : system.Leads allowed state middle)
    (second : system.Leads allowed middle after) :
    system.Leads allowed state after :=
  Relation.ReflTransGen.trans first second

/-- The invariant rule. -/
theorem Reached.invariant (holds : State → Prop) (initial : holds system.start)
    (step : ∀ state event after, holds state → allowed state event →
      system.next state event = some after → holds after)
    {state : State} (reached : system.Reached allowed state) : holds state := by
  induction reached with
  | refl => exact initial
  | tail _ last induction =>
      rcases last with ⟨event, isAllowed, enabled⟩
      exact step _ event _ induction isAllowed enabled

/-- A map of states that turns every step into a step turns a run into a
run. -/
theorem Leads.lift {State' : Type w} {Event' : Type x}
    {system' : Transition State' Event'} {allowed' : State' → Event' → Prop}
    (embed : State → State')
    (step : ∀ state after, system.Step allowed state after →
      system'.Step allowed' (embed state) (embed after))
    {state after : State} (leads : system.Leads allowed state after) :
    system'.Leads allowed' (embed state) (embed after) :=
  Relation.ReflTransGen.lift embed (fun _ _ => step _ _) _ _ leads

section Family

variable {Index : Type w} [DecidableEq Index] {Local : Index → Type x}

def moved (locals target : (index : Index) → Local index)
    (indices : List Index) (index : Index) : Local index :=
  if index ∈ indices then target index else locals index

theorem moved_cons (locals target : (index : Index) → Local index)
    (index : Index) (rest : List Index) :
    moved locals target (index :: rest) =
      Function.update (moved locals target rest) index (target index) := by
  funext other
  by_cases isIndex : other = index
  · subst isIndex
    simp [moved]
  · simp [moved, isIndex]

/-- Components that can each be led somewhere while the others rest can all be
led there, one after the other. -/
theorem leads_family [Fintype Index]
    (embed : ((index : Index) → Local index) → State)
    (Moves : (index : Index) → Local index → Local index → Prop)
    (single : ∀ locals index after, Moves index (locals index) after →
      system.Leads allowed (embed locals)
        (embed (Function.update locals index after)))
    {locals target : (index : Index) → Local index}
    (each : ∀ index, Moves index (locals index) (target index)) :
    system.Leads allowed (embed locals) (embed target) := by
  have some_moved : ∀ indices : List Index, indices.Nodup →
      system.Leads allowed (embed locals)
        (embed (moved locals target indices)) := by
    intro indices distinct
    induction indices with
    | nil => exact .refl
    | cons index rest induction =>
        rw [List.nodup_cons] at distinct
        refine Leads.trans (induction distinct.2) ?_
        rw [moved_cons]
        apply single
        rw [moved, if_neg distinct.1]
        exact each index
  have all_moved : moved locals target Finset.univ.toList = target := by
    funext index
    simp [moved]
  rw [← all_moved]
  exact some_moved _ (Finset.nodup_toList _)

end Family

/-! ## Inevitability -/

/-- Whichever of the `possible` events happen, the system ends in a state of the
goal after finitely many of them. Until then some `due` event can happen. -/
inductive Inevitable (system : Transition State Event)
    (due possible : Event → Prop) (goal : State → Prop) : State → Prop
  | here {state : State} (arrived : goal state) :
      Inevitable system due possible goal state
  | ahead {state : State}
      (goesOn : ∃ event, due event ∧ (system.next state event).isSome)
      (later : ∀ event after, possible event →
        system.next state event = some after →
          Inevitable system due possible goal after) :
      Inevitable system due possible goal state

section Inevitable

variable {due possible : Event → Prop} {goal : State → Prop}
  (holds : State → Prop)

/-- The variant rule. -/
theorem inevitable_of_variant (variant : State → Nat)
    (goesOn : ∀ state, holds state → ¬ goal state →
      ∃ event, due event ∧ (system.next state event).isSome)
    (decreases : ∀ state event after, holds state → possible event →
      system.next state event = some after →
        holds after ∧ variant after < variant state)
    {state : State} (initial : holds state) :
    system.Inevitable due possible goal state := by
  induction bound : variant state using Nat.strong_induction_on
    generalizing state with
  | _ bound induction =>
    subst bound
    by_cases arrived : goal state
    · exact .here arrived
    · refine .ahead (goesOn state initial arrived) ?_
      intro event after isPossible enabled
      rcases decreases state event after initial isPossible enabled
        with ⟨kept, less⟩
      exact induction _ less kept rfl

/-- What is not the goal and cannot be left by due events is never led to the
goal. -/
theorem not_inevitable (isPossible : ∀ event, due event → possible event)
    (misses : ∀ state, holds state → ¬ goal state)
    (stays : ∀ state event after, holds state → due event →
      system.next state event = some after → holds after)
    {state : State} (initial : holds state) :
    ¬ system.Inevitable due possible goal state := by
  intro inevitable
  induction inevitable with
  | here arrived => exact misses _ initial arrived
  | ahead goesOn later induction =>
      rcases goesOn with ⟨event, isDue, goes⟩
      rcases Option.isSome_iff_exists.mp goes with ⟨after, enabled⟩
      exact induction event after (isPossible event isDue) enabled
        (stays _ event after initial isDue enabled)

end Inevitable

section Weights

variable {Index : Type w} [DecidableEq Index] [Fintype Index]
  {Local : Index → Type x}

theorem sum_update_lt (weight : (index : Index) → Local index → Nat)
    (locals : (index : Index) → Local index) {index : Index}
    {after : Local index} (less : weight index after < weight index (locals index)) :
    ∑ other, weight other (Function.update locals index after other) <
      ∑ other, weight other (locals other) := by
  apply Finset.sum_lt_sum
  · intro other _
    by_cases same : other = index
    · subst same
      rw [Function.update_self]
      exact less.le
    · rw [Function.update_of_ne same]
  · refine ⟨index, Finset.mem_univ index, ?_⟩
    rw [Function.update_self]
    exact less

end Weights

theorem leads_of_run {events : List Event} {state after : State}
    (allowed_all : ∀ middle, ∀ event ∈ events, allowed middle event)
    (runs : system.run state events = some after) :
    system.Leads allowed state after := by
  induction events generalizing state with
  | nil =>
      rcases Option.some.inj runs with rfl
      exact .refl
  | cons event rest induction =>
      rw [run, List.foldlM_cons] at runs
      rcases Option.bind_eq_some_iff.mp runs with ⟨middle, enabled, continued⟩
      refine .next event (allowed_all state event List.mem_cons_self) enabled ?_
      exact induction
        (fun middle event member =>
          allowed_all middle event (List.mem_cons_of_mem _ member))
        continued

/-! ## Recorded runs -/

section Recorded

variable {Item : Type w} {observe : State → Event → List Item}

/-- The system together with a record of what is observed of its steps. -/
def recorded (system : Transition State Event)
    (observe : State → Event → List Item) :
    Transition (State × List Item) Event where
  start := (system.start, [])
  next before event :=
    (system.next before.1 event).map fun after =>
      (after, before.2 ++ observe before.1 event)

theorem Reachable.tail {state after : State} (reachable : system.Reachable state)
    {event : Event} (enabled : system.next state event = some after) :
    system.Reachable after :=
  Relation.ReflTransGen.tail reachable ⟨event, trivial, enabled⟩

/-- The invariant rule for a state and what has been observed up to it. -/
theorem Reachable.invariant_recorded (holds : State → List Item → Prop)
    (initial : holds system.start [])
    (step : ∀ state record event after, system.Reachable state →
      holds state record → system.next state event = some after →
        holds after (record ++ observe state event))
    {state : State} {record : List Item}
    (reachable : (system.recorded observe).Reachable (state, record)) :
    system.Reachable state ∧ holds state record := by
  refine Reached.invariant
    (fun before : State × List Item =>
      system.Reachable before.1 ∧ holds before.1 before.2) ?_ ?_ reachable
  · exact ⟨.refl, initial⟩
  · intro before event after held _ enabled
    rcases Option.map_eq_some_iff.mp enabled with ⟨next, isNext, rfl⟩
    exact ⟨held.1.tail isNext, step _ _ event next held.1 held.2 isNext⟩

end Recorded

end Transition
