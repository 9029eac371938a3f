import Mathlib.Data.List.Forall2

/-! # Deterministic machines with outputs

A machine consumes one input per step and answers with one output. Nothing
here depends on what the inputs and the outputs stand for.
-/

structure Mealy (State : Type u) (Input : Type v) (Output : Type w) where
  step : State → Input → State × Output

namespace Mealy

variable {State : Type u} {Input : Type v} {Output : Type w} {State' : Type x}
  {Input' : Type y} {Output' : Type z}

def run (machine : Mealy State Input Output) (state : State) : List Input → State
  | [] => state
  | input :: rest => machine.run (machine.step state input).1 rest

def outputs (machine : Mealy State Input Output) (state : State) :
    List Input → List Output
  | [] => []
  | input :: rest =>
      (machine.step state input).2 ::
        machine.outputs (machine.step state input).1 rest

@[simp] theorem run_nil (machine : Mealy State Input Output) (state : State) :
    machine.run state [] = state := rfl

theorem run_append (machine : Mealy State Input Output) (state : State)
    (first second : List Input) :
    machine.run state (first ++ second) =
      machine.run (machine.run state first) second := by
  induction first generalizing state with
  | nil => rfl
  | cons input rest induction => exact induction _

theorem outputs_append (machine : Mealy State Input Output) (state : State)
    (first second : List Input) :
    machine.outputs state (first ++ second) =
      machine.outputs state first ++
        machine.outputs (machine.run state first) second := by
  induction first generalizing state with
  | nil => rfl
  | cons input rest induction =>
      simp only [List.cons_append, outputs, run, induction]

theorem run_concat (machine : Mealy State Input Output) (state : State)
    (inputs : List Input) (input : Input) :
    machine.run state (inputs ++ [input]) =
      (machine.step (machine.run state inputs) input).1 := by
  rw [run_append]
  rfl

theorem outputs_concat (machine : Mealy State Input Output) (state : State)
    (inputs : List Input) (input : Input) :
    machine.outputs state (inputs ++ [input]) =
      machine.outputs state inputs ++
        [(machine.step (machine.run state inputs) input).2] := by
  rw [outputs_append]
  rfl

/-! ## Translated inputs -/

def comap (machine : Mealy State Input Output) (translate : Input' → Input) :
    Mealy State Input' Output where
  step state input := machine.step state (translate input)

theorem run_comap (machine : Mealy State Input Output)
    (translate : Input' → Input) (state : State) (inputs : List Input') :
    (machine.comap translate).run state inputs =
      machine.run state (inputs.map translate) := by
  induction inputs generalizing state with
  | nil => rfl
  | cons input rest induction => exact induction _

theorem outputs_comap (machine : Mealy State Input Output)
    (translate : Input' → Input) (state : State) (inputs : List Input') :
    (machine.comap translate).outputs state inputs =
      machine.outputs state (inputs.map translate) := by
  induction inputs generalizing state with
  | nil => rfl
  | cons input rest induction =>
      rw [outputs, induction]
      rfl

/-! ## Simulation -/

def Guarded (machine : Mealy State Input Output)
    (guard : State → Input → Prop) (state : State) : List Input → Prop
  | [] => True
  | input :: rest =>
      guard state input ∧
        machine.Guarded guard (machine.step state input).1 rest

theorem guarded_append (machine : Mealy State Input Output)
    (guard : State → Input → Prop) (state : State)
    (first second : List Input) :
    machine.Guarded guard state (first ++ second) ↔
      machine.Guarded guard state first ∧
        machine.Guarded guard (machine.run state first) second := by
  induction first generalizing state with
  | nil => simp [Guarded]
  | cons input rest induction =>
      simp only [List.cons_append, Guarded, run, induction, and_assoc]

theorem guarded_of_splits (machine : Mealy State Input Output)
    (guard : State → Input → Prop) (state : State) (inputs : List Input)
    (holds : ∀ before input after, inputs = before ++ input :: after →
      guard (machine.run state before) input) :
    machine.Guarded guard state inputs := by
  induction inputs generalizing state with
  | nil => trivial
  | cons input rest induction =>
      refine ⟨holds [] input rest rfl, induction _ ?_⟩
      intro before later after split
      exact holds (input :: before) later after (by simp [split])

/-- Two machines whose related states answer every guarded input alike, and
stay related, produce the same outputs over a guarded run. -/
theorem simulation (concrete : Mealy State Input Output)
    (abstract : Mealy State' Input Output) (Related : State → State' → Prop)
    (guard : State' → Input → Prop)
    (step : ∀ state state' input, Related state state' → guard state' input →
      Related (concrete.step state input).1 (abstract.step state' input).1 ∧
        (concrete.step state input).2 = (abstract.step state' input).2)
    {state : State} {state' : State'} (related : Related state state')
    {inputs : List Input} (guarded : abstract.Guarded guard state' inputs) :
    Related (concrete.run state inputs) (abstract.run state' inputs) ∧
      concrete.outputs state inputs = abstract.outputs state' inputs := by
  induction inputs generalizing state state' with
  | nil => exact ⟨related, rfl⟩
  | cons input rest induction =>
      have stepped := step state state' input related guarded.1
      have continued := induction stepped.1 guarded.2
      refine ⟨continued.1, ?_⟩
      simp only [outputs]
      rw [stepped.2, continued.2]

/-- Two machines that are offered corresponding inputs, the first within its
guard, answer each pair of them correspondingly and stay related. -/
theorem lockstep (machine : Mealy State Input Output)
    (machine' : Mealy State' Input' Output') (Related : State → State' → Prop)
    (Corresponds : Input → Input' → Prop) (Answers : Output → Output' → Prop)
    (guard : State → Input → Prop)
    (step : ∀ state state' input input', Related state state' →
      Corresponds input input' → guard state input →
      Related (machine.step state input).1 (machine'.step state' input').1 ∧
        Answers (machine.step state input).2 (machine'.step state' input').2)
    {state : State} {state' : State'} (related : Related state state')
    {inputs : List Input} {inputs' : List Input'}
    (correspond : List.Forall₂ Corresponds inputs inputs')
    (guarded : machine.Guarded guard state inputs) :
    Related (machine.run state inputs) (machine'.run state' inputs') ∧
      List.Forall₂ Answers (machine.outputs state inputs)
        (machine'.outputs state' inputs') := by
  induction correspond generalizing state state' with
  | nil => exact ⟨related, .nil⟩
  | @cons input input' rest rest' same _ induction =>
      have stepped := step state state' input input' related same guarded.1
      have continued := induction stepped.1 guarded.2
      exact ⟨continued.1, .cons stepped.2 continued.2⟩

/-! ## Silent inputs -/

section Silence

variable {Core : Type x} {Word : Type w}

/-- Inputs that leave the core of a settled state as it is, and are answered
with nothing, can be left out of a run: the core and the answers, taken
together, stay the same. -/
theorem run_without_silent (machine : Mealy State Input (List Word))
    (core : State → Core) (Settled : Core → Prop) (silent : Input → Bool)
    (silent_step : ∀ state input, Settled (core state) → silent input = true →
      core (machine.step state input).1 = core state ∧
        (machine.step state input).2 = [])
    (settled_step : ∀ state input, Settled (core state) →
      Settled (core (machine.step state input).1))
    (core_step : ∀ state state' input, core state = core state' →
      silent input = false →
      core (machine.step state input).1 = core (machine.step state' input).1 ∧
        (machine.step state input).2 = (machine.step state' input).2)
    {state state' : State} (settled : Settled (core state))
    (same : core state = core state') (inputs : List Input) :
    core (machine.run state inputs) =
        core (machine.run state' (inputs.filter fun input => !silent input)) ∧
      (machine.outputs state inputs).flatten =
        (machine.outputs state'
          (inputs.filter fun input => !silent input)).flatten := by
  induction inputs generalizing state state' with
  | nil => exact ⟨same, rfl⟩
  | cons input rest induction =>
      have next := settled_step state input settled
      cases quiet : silent input with
      | true =>
          have unmoved := silent_step state input settled quiet
          have continued := induction next (unmoved.1.trans same)
          rw [List.filter_cons_of_neg (by simp [quiet])]
          refine ⟨continued.1, ?_⟩
          rw [outputs, List.flatten_cons, unmoved.2, continued.2,
            List.nil_append]
      | false =>
          have moved := core_step state state' input same quiet
          have continued := induction next moved.1
          rw [List.filter_cons_of_pos (by simp [quiet])]
          refine ⟨continued.1, ?_⟩
          rw [outputs, outputs, List.flatten_cons, List.flatten_cons, moved.2,
            continued.2]

end Silence

end Mealy
