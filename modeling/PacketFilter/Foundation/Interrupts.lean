/-! # Activities that interrupt each other

One thread runs an activity on top of those it interrupted. A lock is held by
an activity, not by the thread.
-/

namespace Interrupts

variable {Activity : Type u}

/-- Whether the lock is held can be seen from the activity that runs: none of
the suspended ones holds it. -/
structure HeldByRunning (holds : Activity → Prop) (held : Prop)
    (running : Activity) (suspended : List Activity) : Prop where
  held_iff : held ↔ holds running
  suspended_free : ∀ activity ∈ suspended, ¬ holds activity

namespace HeldByRunning

variable {holds : Activity → Prop} {held : Prop} {running : Activity}
  {suspended : List Activity}

theorem advance (invariant : HeldByRunning holds held running suspended)
    {held' : Prop} {running' : Activity} (held_iff : held' ↔ holds running') :
    HeldByRunning holds held' running' suspended :=
  ⟨held_iff, invariant.suspended_free⟩

theorem interrupt (invariant : HeldByRunning holds held running suspended)
    (free : ¬ held) {handler : Activity} (fresh : ¬ holds handler) :
    HeldByRunning holds held handler (running :: suspended) where
  held_iff := iff_of_false free fresh
  suspended_free activity member := by
    rcases List.mem_cons.mp member with isRunning | earlier
    · rw [isRunning]
      exact fun holding => free (invariant.held_iff.mpr holding)
    · exact invariant.suspended_free activity earlier

theorem resume {interrupted : Activity}
    (invariant : HeldByRunning holds held running (interrupted :: suspended))
    (released : ¬ holds running) :
    HeldByRunning holds held interrupted suspended where
  held_iff :=
    iff_of_false (fun isHeld => released (invariant.held_iff.mp isHeld))
      (invariant.suspended_free interrupted List.mem_cons_self)
  suspended_free activity member :=
    invariant.suspended_free activity (List.mem_cons_of_mem interrupted member)

end HeldByRunning

end Interrupts
