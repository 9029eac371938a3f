import PacketFilter.Contracts.HashBalance
import Mathlib.Data.Int.ConditionallyCompleteOrder
import Mathlib.Order.Interval.Set.Basic

/-! # Table size contracts

A table of any size is indexed inside its bounds. How much of it is in use
depends on the size alone.
-/

namespace PacketFilter.Contracts

open Hardware

section Indices

variable (size : TableSize)

theorem range_index :
    Set.range size.index = Set.Ico (0 : Int) (2 ^ size.bits : Nat) := by
  have small : 2 ^ size.bits < 2 ^ 31 :=
    Nat.pow_lt_pow_right (by decide) size.bits_lt
  ext index
  rw [Set.mem_range, Set.mem_Ico]
  constructor
  · rintro ⟨hash, rfl⟩
    have below : hash.toNat % 2 ^ size.bits < 2 ^ size.bits :=
      Nat.mod_lt _ (Nat.two_pow_pos _)
    rw [size.index_eq]
    omega
  · rintro ⟨lower, upper⟩
    have inside : index.toNat < 2 ^ size.bits := by omega
    have isHash : (BitVec.ofNat 32 index.toNat).toNat = index.toNat := by
      rw [BitVec.toNat_ofNat]
      exact Nat.mod_eq_of_lt (by omega)
    refine ⟨BitVec.ofNat 32 index.toNat, ?_⟩
    rw [size.index_eq, isHash, Nat.mod_eq_of_lt inside,
      Int.toNat_of_nonneg lower]

theorem count_isPowerOfTwo_iff :
    size.count.isPowerOfTwo ↔ size.count = 2 ^ size.bits := by
  constructor
  · rintro ⟨exponent, isPower⟩
    have lower := size.two_pow_bits_le
    have upper := size.count_lt
    rw [isPower, Nat.pow_le_pow_iff_right (by decide)] at lower
    rw [isPower, Nat.pow_lt_pow_iff_right (by decide)] at upper
    have same : exponent = size.bits := by omega
    rw [isPower, same]
  · intro isPower
    exact ⟨size.bits, isPower⟩

end Indices

/-- Every index is inside the table, and all of the table is indexed exactly
when its size is a power of two. -/
theorem table_size_safe (size : TableSize) :
    (∀ hash, 0 ≤ size.index hash ∧ size.index hash < size.count) ∧
      (Set.range size.index = Set.Ico (0 : Int) size.count ↔
        size.count.isPowerOfTwo) := by
  refine ⟨size.index_lt, ?_⟩
  rw [range_index, count_isPowerOfTwo_iff]
  constructor
  · intro whole
    have positive := Nat.two_pow_pos size.bits
    have notLess : ¬ 2 ^ size.bits < size.count := by
      intro less
      have member : ((2 ^ size.bits : Nat) : Int) ∈
          Set.Ico (0 : Int) size.count := by
        rw [Set.mem_Ico]
        omega
      rw [← whole, Set.mem_Ico] at member
      omega
    have inside := size.two_pow_bits_le
    omega
  · intro isPower
    rw [isPower]

/-! ## Slots in use -/

/-- The keys share the first slots of a table evenly, and no key is kept in any
other slot. -/
theorem card_table_slot (size : TableSize) (slot : Fin size.count) :
    Nat.card { key : Key // size.slot key.1 key.2 = slot } =
      if slot.val < 2 ^ size.bits then 2 ^ (48 - size.bits) else 0 := by
  split
  · next live =>
      rw [← card_liveSlot size ⟨slot, live⟩]
      apply Nat.card_congr (Equiv.subtypeEquivRight _)
      intro key
      rw [Fin.ext_iff, Fin.ext_iff, size.slot_val]
      rfl
  · next dead =>
      have none : IsEmpty { key : Key // size.slot key.1 key.2 = slot } := by
        constructor
        rintro ⟨key, rfl⟩
        apply dead
        rw [size.slot_val]
        exact Nat.mod_lt _ (Nat.two_pow_pos _)
      exact Nat.card_of_isEmpty

end PacketFilter.Contracts
