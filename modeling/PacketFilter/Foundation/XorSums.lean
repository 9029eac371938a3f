import Mathlib.Data.BitVec

/-! # Sums of bit vectors

Exclusive or is the addition of a vector space over two elements. Its linear
maps are determined by the words of a single bit.
-/

namespace XorSums

variable {width width' : Nat}

def xorSum (count : Nat) (term : Nat → BitVec width) : BitVec width :=
  (List.range count).foldl (fun sum index => sum ^^^ term index) 0

@[simp] theorem xorSum_zero (term : Nat → BitVec width) :
    xorSum 0 term = 0 := rfl

theorem xorSum_succ (count : Nat) (term : Nat → BitVec width) :
    xorSum (count + 1) term = xorSum count term ^^^ term count := by
  rw [xorSum, List.range_succ, List.foldl_append]
  rfl

theorem xorSum_congr {count : Nat} {term term' : Nat → BitVec width}
    (same : ∀ index < count, term index = term' index) :
    xorSum count term = xorSum count term' := by
  induction count with
  | zero => rfl
  | succ count induction =>
      rw [xorSum_succ, xorSum_succ, same count (Nat.lt_succ_self count),
        induction fun index below => same index (Nat.lt_succ_of_lt below)]

theorem map_xorSum (map : BitVec width → BitVec width')
    (linear : ∀ word word', map (word ^^^ word') = map word ^^^ map word')
    (count : Nat) (term : Nat → BitVec width) :
    map (xorSum count term) = xorSum count fun index => map (term index) := by
  have zero : map 0 = 0 := by
    have doubled := linear 0 0
    rw [BitVec.xor_self, BitVec.xor_self] at doubled
    exact doubled
  induction count with
  | zero => exact zero
  | succ count induction =>
      rw [xorSum_succ, xorSum_succ, linear, induction]

def bitTerm (word : BitVec width) (index : Nat) : BitVec width :=
  if word.getLsbD index then BitVec.twoPow width index else 0

theorem getLsbD_xorSum_bitTerm (word : BitVec width) (count index : Nat) :
    (xorSum count (bitTerm word)).getLsbD index =
      (decide (index < count) && word.getLsbD index) := by
  induction count with
  | zero => simp
  | succ count induction =>
      rw [xorSum_succ, BitVec.getLsbD_xor, induction]
      by_cases here : index = count
      · subst here
        cases isBit : word.getLsbD index with
        | false => simp [bitTerm, isBit]
        | true => simp [bitTerm, isBit, BitVec.lt_of_getLsbD isBit]
      · have elsewhere : (bitTerm word count).getLsbD index = false := by
          rw [bitTerm]
          split
          · simp [Ne.symm here]
          · simp
        have same : index < count + 1 ↔ index < count := by omega
        rw [elsewhere, Bool.xor_false]
        simp only [same]

theorem xorSum_bitTerm (word : BitVec width) :
    xorSum width (bitTerm word) = word := by
  apply BitVec.eq_of_getLsbD_eq
  intro index bound
  rw [getLsbD_xorSum_bitTerm, decide_eq_true bound, Bool.true_and]

end XorSums
