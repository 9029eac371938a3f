import Mathlib.Data.List.Chain

/-! # Messages

A message is made of fixed texts with an argument behind each of them. No
argument holds the symbol that the next fixed text starts with, so the arguments
can be read off the message.
-/

namespace Messages

variable {Symbol : Type u}

structure Field (Symbol : Type u) where
  label : List Symbol
  argument : List Symbol

def message (fields : List (Field Symbol)) : List Symbol :=
  fields.flatMap fun field => field.label ++ field.argument

def Ends (field next : Field Symbol) : Prop :=
  ∃ symbol rest, next.label = symbol :: rest ∧ symbol ∉ field.argument

/-- Every argument but the last one ends where the next label starts. -/
def Readable (fields : List (Field Symbol)) : Prop := fields.IsChain Ends

theorem message_nil : message ([] : List (Field Symbol)) = [] := rfl

theorem message_cons (field : Field Symbol) (rest : List (Field Symbol)) :
    message (field :: rest) = field.label ++ (field.argument ++ message rest) := by
  rw [message, List.flatMap_cons, List.append_assoc, message]

/-- What comes in front of a symbol that is not part of it can be told from what
comes behind. -/
theorem append_cons_inj {first first' : List Symbol} {symbol : Symbol}
    (absent : symbol ∉ first) (absent' : symbol ∉ first')
    {rest rest' : List Symbol}
    (same : first ++ symbol :: rest = first' ++ symbol :: rest') :
    first = first' ∧ rest = rest' := by
  induction first generalizing first' with
  | nil =>
      cases first' with
      | nil => exact ⟨rfl, (List.cons.inj same).2⟩
      | cons head tail =>
          exact absurd ((List.cons.inj same).1 ▸ List.mem_cons_self) absent'
  | cons head tail induction =>
      cases first' with
      | nil => exact absurd ((List.cons.inj same).1 ▸ List.mem_cons_self) absent
      | cons head' tail' =>
          rcases List.cons.inj same with ⟨rfl, later⟩
          have found := induction
            (fun member => absent (List.mem_cons_of_mem _ member))
            (fun member => absent' (List.mem_cons_of_mem _ member)) later
          exact ⟨congrArg _ found.1, found.2⟩

/-- Behind an argument that ends there, the rest of a message starts with a
symbol that tells it from the argument. -/
theorem argument_inj {field field' next next' : Field Symbol}
    (ends : Ends field next) (ends' : Ends field' next')
    (label : next.label = next'.label) {rest rest' : List (Field Symbol)}
    (same : field.argument ++ message (next :: rest) =
      field'.argument ++ message (next' :: rest')) :
    field.argument = field'.argument ∧
      message (next :: rest) = message (next' :: rest') := by
  rcases ends with ⟨symbol, tail, starts, absent⟩
  rcases ends' with ⟨symbol', tail', starts', absent'⟩
  rw [starts, starts', List.cons.injEq] at label
  rcases label with ⟨rfl, rfl⟩
  rw [message_cons, message_cons, starts, starts', List.cons_append,
    List.cons_append] at same ⊢
  have found := append_cons_inj absent absent' same
  exact ⟨found.1, congrArg _ found.2⟩

/-- Messages with the same fixed texts are equal only if their arguments are. -/
theorem message_inj {fields fields' : List (Field Symbol)}
    (readable : Readable fields) (readable' : Readable fields')
    (labels : fields.map Field.label = fields'.map Field.label)
    (same : message fields = message fields') : fields = fields' := by
  induction fields generalizing fields' with
  | nil => exact (List.map_eq_nil_iff.mp labels.symm).symm
  | cons field rest induction =>
      rcases fields' with _ | ⟨field', rest'⟩
      · cases labels
      · rw [List.map_cons, List.map_cons, List.cons.injEq] at labels
        rw [message_cons, message_cons, labels.1, List.append_cancel_left_eq]
          at same
        have whole : field.argument = field'.argument ∧ rest = rest' := by
          rcases rest with _ | ⟨next, more⟩
          · have none' : rest' = [] := List.map_eq_nil_iff.mp labels.2.symm
            subst none'
            exact ⟨by simpa [message] using same, rfl⟩
          · rcases rest' with _ | ⟨next', more'⟩
            · cases labels.2
            · have starts := List.isChain_cons_cons.mp readable
              have starts' := List.isChain_cons_cons.mp readable'
              have found := argument_inj starts.1 starts'.1
                (List.cons.inj labels.2).1 same
              exact ⟨found.1,
                induction starts.2 starts'.2 labels.2 found.2⟩
        rcases field with ⟨label, argument⟩
        rcases field' with ⟨label', argument'⟩
        rcases labels.1 with rfl
        rcases whole with ⟨rfl, rfl⟩
        rfl

theorem messages_inj {lines lines' : List (List (Field Symbol))}
    (readable : ∀ line ∈ lines, Readable line)
    (readable' : ∀ line ∈ lines', Readable line)
    (labels : lines.map (List.map Field.label) =
      lines'.map (List.map Field.label))
    (same : lines.map message = lines'.map message) : lines = lines' := by
  induction lines generalizing lines' with
  | nil => exact (List.map_eq_nil_iff.mp labels.symm).symm
  | cons line rest induction =>
      rcases lines' with _ | ⟨line', rest'⟩
      · cases labels
      · rw [List.map_cons, List.map_cons, List.cons.injEq] at labels same
        have first : line = line' :=
          message_inj (readable line List.mem_cons_self)
            (readable' line' List.mem_cons_self) labels.1 same.1
        have later : rest = rest' :=
          induction
            (fun other member => readable other (List.mem_cons_of_mem _ member))
            (fun other member => readable' other (List.mem_cons_of_mem _ member))
            labels.2 same.2
        rw [first, later]

end Messages
