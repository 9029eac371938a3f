import Mathlib.SetTheory.Cardinal.Finite

/-! # Maps that spread their domain evenly

A map between finite types whose fibres can be carried onto one another has
fibres of equal size.
-/

namespace Fibres

variable {Key : Type u} {Slot : Type v}

abbrev Fibre (index : Key → Slot) (slot : Slot) : Type u :=
  { key : Key // index key = slot }

theorem card_fibre_eq (index : Key → Slot) {slot slot' : Slot}
    (shift : Key ≃ Key)
    (shifts : ∀ key, index key = slot ↔ index (shift key) = slot') :
    Nat.card (Fibre index slot) = Nat.card (Fibre index slot') :=
  Nat.card_congr (shift.subtypeEquiv shifts)

theorem card_eq_sum_card_fibre [Finite Key] [Fintype Slot]
    (index : Key → Slot) :
    Nat.card Key = ∑ slot, Nat.card (Fibre index slot) := by
  rw [← Nat.card_congr (Equiv.sigmaFiberEquiv index), Nat.card_sigma]

/-- When all fibres have the same size, each of them has its share of the
domain. -/
theorem card_mul_card_fibre [Finite Key] [Fintype Slot] (index : Key → Slot)
    (even : ∀ slot slot', Nat.card (Fibre index slot) =
      Nat.card (Fibre index slot'))
    (slot : Slot) :
    Nat.card Slot * Nat.card (Fibre index slot) = Nat.card Key := by
  rw [card_eq_sum_card_fibre index,
    Finset.sum_const_nat fun other _ => even other slot, Finset.card_univ,
    Nat.card_eq_fintype_card]

/-- A set of slots has as many keys as its slots together. -/
theorem card_preimage [Finite Key] (index : Key → Slot) {share : Nat}
    (even : ∀ slot, Nat.card (Fibre index slot) = share) (slots : Finset Slot) :
    Nat.card { key : Key // index key ∈ slots } = slots.card * share := by
  have fibres := Equiv.sigmaSubtypeFiberEquivSubtype index
    (p := fun key => index key ∈ slots) (q := fun slot => slot ∈ slots)
    fun _ => Iff.rfl
  rw [← Nat.card_congr fibres, Nat.card_sigma,
    Finset.sum_const_nat fun slot _ => even slot.val, Finset.card_univ,
    Fintype.card_coe]

end Fibres
