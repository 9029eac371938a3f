import Mathlib.Logic.Function.Basic

/-! # A mutex with a condition variable

A party that waits gives up the mutex and blocks in one step. It stays blocked
until somebody notifies, or until it wakes for no reason; either way it has to
take the mutex again before it goes on. A notification is lost on a party that
blocks later.
-/

structure Monitor (Party : Type u) where
  owner : Option Party
  blocked : Party → Bool

namespace Monitor

variable {Party : Type u} [DecidableEq Party]

def idle : Monitor Party := ⟨none, fun _ => false⟩

def lock (monitor : Monitor Party) (party : Party) : Option (Monitor Party) :=
  match monitor.owner with
  | none => some { monitor with owner := some party }
  | some _ => none

def unlock (monitor : Monitor Party) : Monitor Party :=
  { monitor with owner := none }

def wait (monitor : Monitor Party) (party : Party) : Monitor Party :=
  ⟨none, Function.update monitor.blocked party true⟩

def notifyAll (monitor : Monitor Party) : Monitor Party :=
  { monitor with blocked := fun _ => false }

def wake (monitor : Monitor Party) (party : Party) : Option (Monitor Party) :=
  if monitor.blocked party then
    some { monitor with blocked := Function.update monitor.blocked party false }
  else none

def resume (monitor : Monitor Party) (party : Party) :
    Option (Monitor Party) :=
  if monitor.blocked party then none else monitor.lock party

@[simp] theorem blocked_wait (monitor : Monitor Party) (party : Party) :
    (monitor.wait party).blocked party = true :=
  Function.update_self _ _ _

omit [DecidableEq Party] in
@[simp] theorem blocked_notifyAll (monitor : Monitor Party) (party : Party) :
    monitor.notifyAll.blocked party = false := rfl

omit [DecidableEq Party] in
theorem lock_eq_some_iff {monitor after : Monitor Party} {party : Party} :
    monitor.lock party = some after ↔
      monitor.owner = none ∧ after = ⟨some party, monitor.blocked⟩ := by
  rw [lock]
  cases owned : monitor.owner with
  | none => simp [eq_comm]
  | some other => simp

theorem wake_eq_some_iff {monitor after : Monitor Party} {party : Party} :
    monitor.wake party = some after ↔
      monitor.blocked party = true ∧
        after = ⟨monitor.owner,
          Function.update monitor.blocked party false⟩ := by
  rw [wake]
  split
  · next blocked => simp [blocked, eq_comm]
  · next awake => simp [awake]

omit [DecidableEq Party] in
theorem resume_eq_some_iff {monitor after : Monitor Party} {party : Party} :
    monitor.resume party = some after ↔
      monitor.blocked party = false ∧ monitor.owner = none ∧
        after = ⟨some party, monitor.blocked⟩ := by
  rw [resume]
  split
  · next blocked => simp [blocked]
  · next awake =>
      rw [lock_eq_some_iff]
      simp [Bool.eq_false_iff.mpr awake]

/-! ## Mutual exclusion -/

def Excludes (monitor : Monitor Party) (inside : Party → Prop) : Prop :=
  ∀ party, inside party → monitor.owner = some party

section Exclusion

omit [DecidableEq Party]

variable {monitor after : Monitor Party} {inside inside' : Party → Prop}
  {party : Party}

theorem Excludes.unique (excludes : monitor.Excludes inside)
    (isInside : inside party) {other : Party} (otherInside : inside other) :
    other = party := by
  have owned := excludes party isInside
  rw [excludes other otherInside] at owned
  exact Option.some.inj owned

theorem Excludes.not_inside (excludes : monitor.Excludes inside)
    (free : monitor.owner = none) (party : Party) : ¬ inside party := by
  intro isInside
  rw [excludes party isInside] at free
  cases free

theorem Excludes.keep (excludes : monitor.Excludes inside)
    (same : after.owner = monitor.owner)
    (shrinks : ∀ other, inside' other → inside other) :
    after.Excludes inside' := by
  intro other isInside
  rw [same]
  exact excludes other (shrinks other isInside)

theorem Excludes.enter (excludes : monitor.Excludes inside)
    (free : monitor.owner = none) (owned : after.owner = some party)
    (grows : ∀ other, inside' other → other = party ∨ inside other) :
    after.Excludes inside' := by
  intro other isInside
  rcases grows other isInside with rfl | before
  · exact owned
  · exact absurd before (excludes.not_inside free other)

theorem Excludes.leave (excludes : monitor.Excludes inside)
    (wasInside : inside party)
    (shrinks : ∀ other, inside' other → inside other ∧ other ≠ party) :
    after.Excludes inside' := by
  intro other isInside
  have before := shrinks other isInside
  exact absurd (excludes.unique wasInside before.1) before.2

end Exclusion

end Monitor
