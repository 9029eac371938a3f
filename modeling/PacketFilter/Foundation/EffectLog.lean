import PacketFilter.Foundation.FailingState
import Mathlib.Data.List.Infix

/-! # Programs that leave a log

A program performs effects one after the other and may fail. All that it has
performed stays in its log, and an answer of the environment may depend on all
of it.
-/

namespace EffectLog

variable {Failure Failure' Effect Result Next Item : Type}

abbrev Program (Failure Effect : Type) := ExceptT Failure (StateM (List Effect))

def perform (effect : Effect) : Program Failure Effect Unit :=
  modify (· ++ [effect])

def ask (effect : Effect) (answer : List Effect → Result) :
    StateM (List Effect) Result :=
  modifyGet fun log => (answer log, log ++ [effect])

/-- A step without effects that may fail in its own way. -/
def attempt (rename : Failure' → Failure) (result : Except Failure' Result) :
    Program Failure Effect Result :=
  match result with
  | .ok value => pure value
  | .error failure => throw (rename failure)

/-- Behind a log, the program adds `performed` to it and ends so. -/
def Performs (program : Program Failure Effect Result) (log : List Effect)
    (ended : Except Failure Result) (performed : List Effect) : Prop :=
  FailingState.execute program log = (ended, log ++ performed)

theorem performs_pure (value : Result) (log : List Effect) :
    Performs (pure value : Program Failure Effect Result) log (.ok value) [] := by
  rw [Performs, List.append_nil]
  rfl

theorem performs_perform (effect : Effect) (log : List Effect) :
    Performs (perform effect : Program Failure Effect Unit) log (.ok ())
      [effect] := rfl

theorem performs_ask (effect : Effect) (answer : List Effect → Result)
    (log : List Effect) :
    Performs (ExceptT.lift (ask effect answer) : Program Failure Effect Result)
      log (.ok (answer log)) [effect] := rfl

theorem performs_attempt (rename : Failure' → Failure)
    (result : Except Failure' Result) (log : List Effect) :
    Performs (attempt rename result) log (result.mapError rename) [] := by
  rw [Performs, List.append_nil]
  cases result <;> rfl

section Sequence

variable {program : Program Failure Effect Result} {log performed : List Effect}

theorem Performs.bind {result : Result} {next : Result → Program Failure Effect Next}
    {ended : Except Failure Next} {later : List Effect}
    (first : Performs program log (.ok result) performed)
    (second : Performs (next result) (log ++ performed) ended later) :
    Performs (program >>= next) log ended (performed ++ later) := by
  rw [Performs, FailingState.execute_bind_ok first, second, List.append_assoc]

/-- A step without effects leaves the log to what comes next. -/
theorem Performs.bind_silent {result : Result}
    {next : Result → Program Failure Effect Next} {ended : Except Failure Next}
    (first : Performs program log (.ok result) [])
    (second : Performs (next result) log ended performed) :
    Performs (program >>= next) log ended performed := by
  rw [← List.append_nil log] at second
  exact first.bind second

theorem Performs.bind_error {failure : Failure}
    (failed : Performs program log (.error failure) performed)
    (next : Result → Program Failure Effect Next) :
    Performs (program >>= next) log (.error failure) performed :=
  FailingState.execute_bind_error failed next

theorem Performs.adapt {ended : Except Failure Result}
    (ran : Performs program log ended performed)
    (rename : Failure → Failure') :
    Performs (ExceptT.adapt rename program) log (ended.mapError rename)
      performed := by
  have adapted : FailingState.execute (ExceptT.adapt rename program) log =
      ((FailingState.execute program log).1.mapError rename,
        (FailingState.execute program log).2) := rfl
  rw [Performs, adapted, ran]

end Sequence

theorem performs_forM {body : Item → Program Failure Effect Unit}
    {effectsOf : Item → List Effect}
    (turn : ∀ item log, Performs (body item) log (.ok ()) (effectsOf item))
    (items : List Item) (log : List Effect) :
    Performs (forM items body) log (.ok ()) (items.flatMap effectsOf) := by
  induction items generalizing log with
  | nil => exact performs_pure () log
  | cons item rest induction =>
      rw [List.forM_cons, List.flatMap_cons]
      exact (turn item log).bind (induction _)

theorem performs_forM_perform (effectOf : Item → Effect) (items : List Item)
    (log : List Effect) :
    Performs
      (forM items fun item =>
        (perform (effectOf item) : Program Failure Effect Unit))
      log (.ok ()) (items.map effectOf) := by
  rw [List.map_eq_flatMap]
  exact performs_forM (fun _ _ => performs_perform _ _) items log

/-! ## Programs that are stopped -/

/-- A program that gets no further than the first log that `stops` it. -/
def cutOff (stops : List Effect → Bool) (stopped : Failure)
    (ran : Except Failure Result × List Effect) :
    Except Failure Result × List Effect :=
  match ran.2.inits.find? stops with
  | none => ran
  | some reached => (.error stopped, reached)

section CutOff

variable (stops : List Effect → Bool) (stopped : Failure)
  (ran : Except Failure Result × List Effect)

theorem cutOff_eq_or :
    cutOff stops stopped ran = ran ∨
      (cutOff stops stopped ran).1 = .error stopped ∧
        (cutOff stops stopped ran).2 <+: ran.2 := by
  rw [cutOff]
  cases isCut : ran.2.inits.find? stops with
  | none => exact .inl rfl
  | some reached =>
      exact .inr ⟨rfl, (List.mem_inits _ _).mp (List.mem_of_find?_eq_some isCut)⟩

end CutOff

end EffectLog
