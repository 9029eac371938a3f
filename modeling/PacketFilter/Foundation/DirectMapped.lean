import Mathlib.Logic.Function.Basic

/-! # Direct-mapped tables

A table that keeps one value per slot and no key. An entry replaces whatever
its slot held, so a slot remembers exactly the latest entry written to it.
-/

namespace DirectMapped

variable {Entry : Type u} {Slot : Type v} {Value : Type w}

def latest (matching : Entry → Bool) (entries : List Entry) : Option Entry :=
  (entries.filter matching).getLast?

@[simp] theorem latest_nil (matching : Entry → Bool) :
    latest matching [] = none := rfl

theorem latest_append (matching : Entry → Bool) (earlier later : List Entry) :
    latest matching (earlier ++ later) =
      (latest matching later).or (latest matching earlier) := by
  simp [latest]

theorem latest_concat (matching : Entry → Bool) (entries : List Entry)
    (entry : Entry) :
    latest matching (entries ++ [entry]) =
      if matching entry then some entry else latest matching entries := by
  by_cases fits : matching entry = true <;> simp [latest, fits]

theorem latest_replicate (matching : Entry → Bool) (entry : Entry)
    {count : Nat} (positive : 0 < count) :
    latest matching (List.replicate count entry) = latest matching [entry] := by
  cases count with
  | zero => exact absurd positive (Nat.lt_irrefl 0)
  | succ count =>
      rw [List.replicate_succ', latest_concat, ← List.nil_append [entry],
        latest_concat]
      by_cases fits : matching entry = true
      · rw [if_pos fits, if_pos fits]
      · rw [if_neg fits, if_neg fits]
        simp [latest, fits]

theorem mem_of_latest {matching : Entry → Bool} {entries : List Entry}
    {entry : Entry} (found : latest matching entries = some entry) :
    entry ∈ entries ∧ matching entry = true :=
  List.mem_filter.mp (List.mem_of_getLast? found)

theorem latest_isSome_of_mem {matching : Entry → Bool} {entries : List Entry}
    {entry : Entry} (member : entry ∈ entries) (fits : matching entry = true) :
    ∃ found, latest matching entries = some found := by
  have nonempty : entries.filter matching ≠ [] :=
    List.ne_nil_of_mem (List.mem_filter.mpr ⟨member, fits⟩)
  exact ⟨_, List.getLast?_eq_some_getLast nonempty⟩

/-- From a matching entry on, what holds of all entries holds of the latest
match. -/
theorem latest_of_forall (matching : Entry → Bool) (Property : Entry → Prop)
    (earlier : List Entry) {entry : Entry} {later : List Entry}
    (fits : matching entry = true)
    (holds : ∀ found ∈ entry :: later, Property found) :
    ∃ found, latest matching (earlier ++ entry :: later) = some found ∧
      Property found := by
  have member : entry ∈ entry :: later := List.mem_cons_self
  rcases latest_isSome_of_mem member fits with ⟨found, isLatest⟩
  refine ⟨found, ?_, holds found (mem_of_latest isLatest).1⟩
  rw [latest_append, isLatest]
  rfl

theorem latest_eq_none_iff (matching : Entry → Bool) (entries : List Entry) :
    latest matching entries = none ↔
      ∀ entry ∈ entries, matching entry = false := by
  simp [latest]

/-! ## Writing entries -/

variable [DecidableEq Slot]

def install (slotOf : Entry → Slot) (valueOf : Entry → Value)
    (table : Slot → Value) (entry : Entry) : Slot → Value :=
  Function.update table (slotOf entry) (valueOf entry)

theorem install_apply (slotOf : Entry → Slot) (valueOf : Entry → Value)
    (table : Slot → Value) (entry : Entry) (slot : Slot) :
    install slotOf valueOf table entry slot =
      if slotOf entry = slot then valueOf entry else table slot := by
  by_cases same : slotOf entry = slot
  · subst same
    simp [install]
  · simp [install, same, Function.update_of_ne (Ne.symm same)]

/-- After a history of writes a slot holds the value of the latest entry
written to it, or what it held at the start. -/
theorem foldl_install (slotOf : Entry → Slot) (valueOf : Entry → Value)
    (table : Slot → Value) (entries : List Entry) (slot : Slot) :
    entries.foldl (install slotOf valueOf) table slot =
      ((latest (fun entry => decide (slotOf entry = slot)) entries).map
        valueOf).getD (table slot) := by
  induction entries generalizing table with
  | nil => rfl
  | cons entry rest induction =>
      have split := latest_append
        (fun entry => decide (slotOf entry = slot)) [entry] rest
      rw [List.singleton_append] at split
      rw [List.foldl_cons, induction, split, install_apply]
      by_cases same : slotOf entry = slot <;>
        cases latest (fun entry => decide (slotOf entry = slot)) rest <;>
        simp [latest, same]

end DirectMapped
