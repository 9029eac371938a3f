import Mathlib.Data.BitVec

/-! # Byte lanes

A wide word carries bytes in lanes: byte `i` is in bits `8 * i + 7` down to
`8 * i`. Every byte-aligned field is the concatenation of its lanes, the
highest lane first.
-/

namespace ByteLanes

variable {width : Nat}

def lane (data : BitVec width) (index : Nat) : BitVec 8 :=
  data.extractLsb' (8 * index) 8

/-- A field that starts on a byte boundary splits off its lowest lane. -/
theorem extract_succ (data : BitVec width) (index count : Nat) :
    data.extractLsb' (8 * index) (count + 8) =
      data.extractLsb' (8 * (index + 1)) count ++ lane data index :=
  (BitVec.extractLsb'_append_extractLsb'_eq_extractLsb' (by omega)).symm

theorem extract_two (data : BitVec width) (index : Nat) :
    data.extractLsb' (8 * index) 16 = lane data (index + 1) ++ lane data index :=
  extract_succ data index 8

theorem extract_four (data : BitVec width) (index : Nat) :
    data.extractLsb' (8 * index) 32 =
      lane data (index + 3) ++ lane data (index + 2) ++ lane data (index + 1) ++
        lane data index := by
  have lowest := extract_succ data index 24
  have second := extract_succ data (index + 1) 16
  have highest := extract_two data (index + 2)
  rw [highest] at second
  rw [second] at lowest
  exact lowest

/-- A range that lies in one lane is a range of that lane. -/
theorem extract_within (data : BitVec width) (index start count : Nat)
    (inside : start + count ≤ 8) :
    data.extractLsb' (8 * index + start) count =
      (lane data index).extractLsb' start count := by
  apply BitVec.eq_of_getLsbD_eq
  intro bit bound
  have within : start + bit < 8 := by omega
  simp only [lane, BitVec.getLsbD_extractLsb', bound, within, decide_true,
    Bool.true_and, Nat.add_assoc]

/-- A range that begins in one lane splits off its part of that lane. -/
theorem extract_across (data : BitVec width) (index start low high : Nat)
    (ends : start + low = 8) :
    data.extractLsb' (8 * index + start) (high + low) =
      data.extractLsb' (8 * (index + 1)) high ++
        (lane data index).extractLsb' start low := by
  rw [← extract_within data index start low (by omega)]
  exact (BitVec.extractLsb'_append_extractLsb'_eq_extractLsb' (by omega)).symm

theorem toNat_append_byte (high : BitVec width) (low : BitVec 8) :
    (high ++ low).toNat = high.toNat * 256 + low.toNat := by
  rw [BitVec.toNat_append, ← Nat.shiftLeft_add_eq_or_of_lt low.isLt,
    Nat.shiftLeft_eq]

theorem append_inj {highWidth lowWidth : Nat}
    {high high' : BitVec highWidth} {low low' : BitVec lowWidth} :
    high ++ low = high' ++ low' ↔ high = high' ∧ low = low' := by
  constructor
  · intro equal
    constructor
    · simpa only [BitVec.extractLsb'_append_eq_left] using
        congrArg (BitVec.extractLsb' lowWidth highWidth) equal
    · simpa only [BitVec.extractLsb'_append_eq_right] using
        congrArg (BitVec.extractLsb' 0 lowWidth) equal
  · rintro ⟨rfl, rfl⟩
    rfl

end ByteLanes
