import PacketFilter.Foundation.Mealy
import Mathlib.Logic.Function.Basic

/-! # Banks of machines

Several copies of one machine behind a router. Each input reaches one of them or
none, and each of them runs as if it were alone with the inputs that reach it.
-/

namespace Mealy

variable {Index : Type u} [DecidableEq Index] {State : Type v} {Input : Type w}
  {Input' : Type x} {Output : Type y}

def bank (machine : Mealy State Input Output)
    (route : Input' → Option (Index × Input)) :
    Mealy (Index → State) Input' (Option (Index × Output)) where
  step states input :=
    match route input with
    | none => (states, none)
    | some (index, routed) =>
        let (next, output) := machine.step (states index) routed
        (Function.update states index next, some (index, output))

def addressedTo {Value : Type z} (index : Index) (value : Index × Value) :
    Option Value :=
  if value.1 = index then some value.2 else none

def routedTo (route : Input' → Option (Index × Input)) (index : Index)
    (inputs : List Input') : List Input :=
  inputs.filterMap fun input => (route input).bind (addressedTo index)

def outputsOf (index : Index) (outputs : List (Option (Index × Output))) :
    List Output :=
  outputs.filterMap fun output => output.bind (addressedTo index)

theorem routedTo_cons (route : Input' → Option (Index × Input)) (index : Index)
    (input : Input') (rest : List Input') :
    routedTo route index (input :: rest) =
      ((route input).bind (addressedTo index)).toList ++
        routedTo route index rest := by
  rw [routedTo, List.filterMap_cons]
  cases (route input).bind (addressedTo index) <;> rfl

theorem outputsOf_cons (index : Index) (output : Option (Index × Output))
    (rest : List (Option (Index × Output))) :
    outputsOf index (output :: rest) =
      (output.bind (addressedTo index)).toList ++ outputsOf index rest := by
  rw [outputsOf, List.filterMap_cons]
  cases output.bind (addressedTo index) <;> rfl

section Step

variable (machine : Mealy State Input Output)
  {route : Input' → Option (Index × Input)} (states : Index → State)
  {input : Input'}

theorem bank_step_none (unrouted : route input = none) :
    (machine.bank route).step states input = (states, none) := by
  simp only [bank, unrouted]

theorem bank_step_some {target : Index} {given : Input}
    (routed : route input = some (target, given)) :
    (machine.bank route).step states input =
      (Function.update states target (machine.step (states target) given).1,
        some (target, (machine.step (states target) given).2)) := by
  simp only [bank, routed]

variable (route input) in
/-- One input moves a machine of the bank as it moves the machine alone, if it
is meant for it, and not at all otherwise. -/
theorem bank_step (index : Index) :
    let alone := ((route input).bind (addressedTo index)).toList
    ((machine.bank route).step states input).1 index =
        machine.run (states index) alone ∧
      ((((machine.bank route).step states input).2).bind
          (addressedTo index)).toList =
        machine.outputs (states index) alone := by
  cases routed : route input with
  | none =>
      rw [bank_step_none machine states routed]
      exact ⟨rfl, rfl⟩
  | some meant =>
      rcases meant with ⟨target, given⟩
      rw [bank_step_some machine states routed]
      by_cases same : target = index
      · subst same
        simp [addressedTo, run, outputs]
      · simp [addressedTo, same, Function.update_of_ne (Ne.symm same),
          outputs]

end Step

/-- A machine of a bank runs on the inputs that reach it. -/
theorem run_bank (machine : Mealy State Input Output)
    (route : Input' → Option (Index × Input)) (states : Index → State)
    (inputs : List Input') (index : Index) :
    (machine.bank route).run states inputs index =
      machine.run (states index) (routedTo route index inputs) := by
  induction inputs generalizing states with
  | nil => rfl
  | cons input rest induction =>
      rw [run, induction, (bank_step machine route states input index).1,
        routedTo_cons, run_append]

theorem outputs_bank (machine : Mealy State Input Output)
    (route : Input' → Option (Index × Input)) (states : Index → State)
    (inputs : List Input') (index : Index) :
    outputsOf index ((machine.bank route).outputs states inputs) =
      machine.outputs (states index) (routedTo route index inputs) := by
  induction inputs generalizing states with
  | nil => rfl
  | cons input rest induction =>
      have step := bank_step machine route states input index
      rw [outputs, outputsOf_cons, induction, step.1, step.2, routedTo_cons,
        outputs_append]

end Mealy
