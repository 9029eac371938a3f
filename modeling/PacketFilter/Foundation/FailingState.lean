/-! # Programs that fail and keep their state

What a program did before it failed stays done.
-/

namespace FailingState

variable {Failure : Type u} {State Result Next : Type u}

def execute (program : ExceptT Failure (StateM State) Result) (state : State) :
    Except Failure Result × State :=
  program.run.run state

theorem execute_bind (program : ExceptT Failure (StateM State) Result)
    (next : Result → ExceptT Failure (StateM State) Next) (state : State) :
    execute (program >>= next) state =
      match execute program state with
      | (.ok result, after) => execute (next result) after
      | (.error failure, after) => (.error failure, after) := by
  change StateT.run (ExceptT.run program >>= ExceptT.bindCont next) state = _
  rw [StateT.run_bind]
  change (ExceptT.bindCont next (execute program state).1).run
    (execute program state).2 = _
  rcases execute program state with ⟨result | failure, after⟩
  · rfl
  · rfl

theorem execute_bind_ok {program : ExceptT Failure (StateM State) Result}
    {state after : State} {result : Result}
    (ran : execute program state = (.ok result, after))
    (next : Result → ExceptT Failure (StateM State) Next) :
    execute (program >>= next) state = execute (next result) after := by
  rw [execute_bind, ran]

theorem execute_bind_error {program : ExceptT Failure (StateM State) Result}
    {state after : State} {failure : Failure}
    (failed : execute program state = (.error failure, after))
    (next : Result → ExceptT Failure (StateM State) Next) :
    execute (program >>= next) state = (.error failure, after) := by
  rw [execute_bind, failed]

end FailingState
