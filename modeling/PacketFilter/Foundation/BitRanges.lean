import Mathlib.Data.BitVec

/-! # Bit ranges

Assignment to a range of the bits of a word, as in `data.range(hi, lo) = value`.
-/

namespace BitRanges

variable {width : Nat}

def rangeMask (width hi lo : Nat) : BitVec width :=
  (BitVec.allOnes (hi - lo + 1)).setWidth width <<< lo

def setRange (data : BitVec width) (hi lo : Nat)
    (value : BitVec (hi - lo + 1)) : BitVec width :=
  (data &&& ~~~ rangeMask width hi lo) ||| value.setWidth width <<< lo

theorem getLsbD_setRange (data : BitVec width) {hi lo : Nat}
    (ordered : lo ≤ hi) (value : BitVec (hi - lo + 1)) {index : Nat}
    (inside : index < width) :
    (setRange data hi lo value).getLsbD index =
      if lo ≤ index ∧ index ≤ hi then value.getLsbD (index - lo)
      else data.getLsbD index := by
  by_cases below : index < lo
  · simp [setRange, rangeMask, inside, below]
  · by_cases above : index ≤ hi
    · have offset : index - lo < hi - lo + 1 := by omega
      have reached : lo ≤ index := by omega
      simp [setRange, rangeMask, inside, below, above, offset, reached]
    · have offset : ¬ index - lo < hi - lo + 1 := by omega
      have beyond : value.getLsbD (index - lo) = false :=
        BitVec.getLsbD_of_ge _ _ (by omega)
      simp [setRange, rangeMask, inside, below, above, offset, beyond]

@[simp] theorem extractLsb_setRange_self (data : BitVec width) {hi lo : Nat}
    (ordered : lo ≤ hi) (inside : hi < width) (value : BitVec (hi - lo + 1)) :
    (setRange data hi lo value).extractLsb hi lo = value := by
  apply BitVec.eq_of_getLsbD_eq
  intro index bound
  have within : lo + index ≤ hi := by omega
  have offset : index ≤ hi - lo := by omega
  simp [getLsbD_setRange data ordered value (Nat.lt_of_le_of_lt within inside),
    within, offset]

theorem extractLsb_setRange_of_disjoint (data : BitVec width)
    {hi lo hi' lo' : Nat} (ordered : lo ≤ hi) (ordered' : lo' ≤ hi')
    (inside : hi < width) (disjoint : hi < lo' ∨ hi' < lo)
    (value : BitVec (hi' - lo' + 1)) :
    (setRange data hi' lo' value).extractLsb hi lo = data.extractLsb hi lo := by
  apply BitVec.eq_of_getLsbD_eq
  intro index bound
  have elsewhere : ¬ (lo' ≤ lo + index ∧ lo + index ≤ hi') := by omega
  simp only [BitVec.getLsbD_extractLsb, getLsbD_setRange data ordered' value
    (show lo + index < width by omega), if_neg elsewhere]

/-! ## Words put together from two -/

/-- The lowest `count` bits of one word under the other bits of another. -/
def splice (low high : BitVec width) (count : Nat) : BitVec width :=
  (low &&& (BitVec.allOnes count).setWidth width) |||
    (high &&& ~~~ (BitVec.allOnes count).setWidth width)

theorem getLsbD_splice (low high : BitVec width) (count : Nat) {index : Nat}
    (inside : index < width) :
    (splice low high count).getLsbD index =
      if index < count then low.getLsbD index else high.getLsbD index := by
  by_cases below : index < count
  · simp [splice, inside, below]
  · simp [splice, inside, below]

@[simp] theorem splice_zero (low high : BitVec width) :
    splice low high 0 = high := by
  apply BitVec.eq_of_getLsbD_eq
  intro index inside
  simp [getLsbD_splice low high 0 inside]

theorem setRange_splice (low high : BitVec width) (hi : Nat) {lo : Nat}
    (ordered : lo ≤ hi) :
    setRange (splice low high lo) hi lo (low.extractLsb hi lo) =
      splice low high (hi + 1) := by
  apply BitVec.eq_of_getLsbD_eq
  intro index inside
  rw [getLsbD_setRange _ ordered _ inside, getLsbD_splice _ _ _ inside,
    getLsbD_splice _ _ _ inside]
  by_cases below : index < lo
  · have within : index < hi + 1 := by omega
    have outside : ¬ lo ≤ index := by omega
    simp [below, within, outside]
  · by_cases above : index ≤ hi
    · have reached : lo ≤ index := by omega
      have within : index < hi + 1 := by omega
      have offset : index - lo ≤ hi - lo := by omega
      simp [above, reached, within, offset]
    · have beyond : ¬ index < hi + 1 := by omega
      simp [below, above, beyond]

theorem extractLsb_splice_low (low high : BitVec width) {hi lo count : Nat}
    (below : hi < count) (ordered : lo ≤ hi) (inside : hi < width) :
    (splice low high count).extractLsb hi lo = low.extractLsb hi lo := by
  apply BitVec.eq_of_getLsbD_eq
  intro index bound
  simp only [BitVec.getLsbD_extractLsb, getLsbD_splice low high count
    (show lo + index < width by omega),
    if_pos (show lo + index < count by omega)]

theorem extractLsb_splice_high (low high : BitVec width) {hi lo count : Nat}
    (above : count ≤ lo) (ordered : lo ≤ hi) (inside : hi < width) :
    (splice low high count).extractLsb hi lo = high.extractLsb hi lo := by
  apply BitVec.eq_of_getLsbD_eq
  intro index bound
  simp only [BitVec.getLsbD_extractLsb, getLsbD_splice low high count
    (show lo + index < width by omega),
    if_neg (show ¬ lo + index < count by omega)]

end BitRanges
