import Mathlib.Logic.Equiv.Prod

/-! # Reading a changing value in two parts

One party accesses shared data while another one goes on changing it. A value
that is read in two accesses is put together from two moments.
-/

/-- The data, and what the other party does before each of the next accesses. -/
abbrev Interleaved (Shared Act : Type) := StateM (Shared × List (List Act))

namespace Interleaved

variable {Shared Act Value : Type}

def access (advance : Shared → List Act → Shared) (view : Shared → Value) :
    Interleaved Shared Act Value :=
  fun (shared, gaps) =>
    let reached := advance shared (gaps.headD [])
    (view reached, (reached, gaps.tail))

end Interleaved

namespace SplitRead

variable {Value : Type u} {Upper : Type v} {Lower : Type w}

/-! ## Values from two moments -/

section Mixture

variable (split : Value ≃ Upper × Lower)

def mixture (first second : Value) : Value :=
  split.symm ((split second).1, (split first).2)

theorem mixture_of_upper_eq {first second : Value}
    (steady : (split first).1 = (split second).1) :
    mixture split first second = first := by
  rw [mixture, ← steady]
  exact split.symm_apply_apply first

theorem eq_mixture_iff (first second value : Value) :
    value = mixture split first second ↔
      (split value).1 = (split second).1 ∧ (split value).2 = (split first).2 := by
  rw [mixture, Equiv.eq_symm_apply, Prod.ext_iff]

end Mixture

/-! ## A value that grows while it is read -/

/-- The values that a counter takes while it is read: at the start of the
access to its lower part, until it is carried out, until the access to the upper
part is carried out, and until the end of that. -/
structure Window (Value : Type u) [LT Value] where
  start : Value
  lead : List Value
  between : List Value
  trail : List Value
  growing : (start :: (lead ++ (between ++ trail))).Pairwise (· < ·)

namespace Window

variable [LT Value] (window : Window Value)

def held : List Value :=
  window.start :: (window.lead ++ (window.between ++ window.trail))

def first : Value := window.lead.getLastD window.start

def second : Value := window.between.getLastD window.first

def last : Value := window.trail.getLastD window.second

theorem first_mem : window.first ∈ window.start :: window.lead :=
  List.getLastD_mem_cons

theorem second_mem : window.second ∈ window.first :: window.between :=
  List.getLastD_mem_cons

theorem held_eq : window.held =
    (window.start :: window.lead) ++ (window.between ++ window.trail) := rfl

theorem first_mem_held : window.first ∈ window.held := by
  rw [held_eq]
  exact List.mem_append_left _ window.first_mem

theorem second_mem_held : window.second ∈ window.held := by
  rcases List.mem_cons.mp window.second_mem with same | member
  · rw [same]
    exact window.first_mem_held
  · rw [held_eq]
    exact List.mem_append_right _ (List.mem_append_left _ member)

theorem eq_or_lt_getLastD {initial : Value} {values : List Value}
    (growing : (initial :: values).Pairwise (· < ·)) {value : Value}
    (member : value ∈ initial :: values) :
    value = values.getLastD initial ∨ value < values.getLastD initial := by
  induction values generalizing initial with
  | nil =>
      left
      simpa using member
  | cons next rest induction =>
      rw [List.getLastD_cons]
      rw [List.pairwise_cons] at growing
      rcases List.mem_cons.mp member with rfl | later
      · right
        exact growing.1 _ List.getLastD_mem_cons
      · exact induction growing.2 later

theorem first_lt {value : Value}
    (member : value ∈ window.between ++ window.trail) : window.first < value := by
  have growing := window.growing
  rw [← List.cons_append, List.pairwise_append] at growing
  exact growing.2.2 _ window.first_mem _ member

theorem first_eq_or_lt_second :
    window.first = window.second ∨ window.first < window.second := by
  rcases List.mem_cons.mp window.second_mem with same | member
  · exact .inl same.symm
  · exact .inr (window.first_lt (List.mem_append_left _ member))

theorem eq_or_lt_last {value : Value} (member : value ∈ window.held) :
    value = window.last ∨ value < window.last := by
  have isLast : window.last =
      (window.lead ++ (window.between ++ window.trail)).getLastD
        window.start := by
    simp only [last, second, first, List.getLastD_eq_getLast?,
      List.getLast?_append]
    cases window.trail.getLast? <;> cases window.between.getLast? <;> simp
  rw [isLast]
  exact eq_or_lt_getLastD window.growing member

section Parts

variable (split : Value ≃ Upper × Lower)

/-- The upper part did not change between the two accesses. -/
def Steady : Prop := (split window.first).1 = (split window.second).1

end Parts

end Window

end SplitRead
