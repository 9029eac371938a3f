import Mathlib.Data.List.TakeWhile
import PacketFilter.Foundation.ByteLanes

/-! # Text conversions of the C library

Numbers and internet addresses as the C library reads them from text, on a
little-endian host.
-/

namespace CText

open ByteLanes

/-- The part of a string that `c_str()` shows to a C function. -/
def cStr (text : List Char) : List Char :=
  text.takeWhile (· != Char.ofNat 0)

/-- `isspace` in the C locale -/
def isSpace (char : Char) : Bool :=
  char == ' ' || (9 ≤ char.toNat && char.toNat ≤ 13)

def decimal (value : Nat) : List Char := Nat.toDigits 10 value

/-! ## Integers -/

inductive ConversionError where
  | invalidArgument
  | outOfRange
  deriving DecidableEq

def splitSign : List Char → Int × List Char
  | '-' :: rest => (-1, rest)
  | '+' :: rest => (1, rest)
  | rest => (1, rest)

/-- `std::stoi`, base 10. Text behind the digits is ignored. -/
def stoi (text : List Char) : Except ConversionError Int :=
  let (sign, unsigned) := splitSign ((cStr text).dropWhile isSpace)
  let digits := unsigned.takeWhile Char.isDigit
  if digits = [] then .error .invalidArgument
  else
    let value := sign * Nat.ofDigitChars 10 digits 0
    if value < -2 ^ 31 ∨ 2 ^ 31 ≤ value then .error .outOfRange else .ok value

theorem isDigit_of_mem_decimal {value : Nat} {char : Char}
    (member : char ∈ decimal value) : char.isDigit = true :=
  Nat.isDigit_of_mem_toDigits (by decide) (by decide) member

theorem notMem_decimal {char : Char} (other : char.isDigit = false)
    (value : Nat) : char ∉ decimal value := by
  intro member
  rw [isDigit_of_mem_decimal member] at other
  cases other

theorem toNat_of_isDigit {char : Char} (digit : char.isDigit = true) :
    48 ≤ char.toNat ∧ char.toNat ≤ 57 :=
  Char.isDigit_iff_toNat.mp digit

theorem not_isSpace_of_isDigit {char : Char} (digit : char.isDigit = true) :
    isSpace char = false := by
  have bounds := toNat_of_isDigit digit
  have notBlank : char ≠ ' ' := by
    rintro rfl
    exact absurd digit (by decide)
  simp only [isSpace, beq_eq_false_iff_ne.mpr notBlank, Bool.false_or,
    Bool.and_eq_false_iff, decide_eq_false_iff_not]
  right
  omega

theorem cStr_of_isDigit {text : List Char}
    (digits : ∀ char ∈ text, char.isDigit = true) : cStr text = text := by
  apply List.takeWhile_eq_self_iff.mpr
  intro char member
  have bounds := toNat_of_isDigit (digits char member)
  apply bne_iff_ne.mpr
  rintro rfl
  exact absurd bounds (by decide)

theorem splitSign_of_isDigit {text : List Char}
    (digits : ∀ char ∈ text, char.isDigit = true) :
    splitSign (text.dropWhile isSpace) = (1, text) := by
  cases text with
  | nil => rfl
  | cons head tail =>
      have isDigit : head.isDigit = true := digits head List.mem_cons_self
      rw [List.dropWhile_cons_of_neg
        (by rw [not_isSpace_of_isDigit isDigit]; exact Bool.false_ne_true),
        splitSign]
      · rintro rest minus
        cases minus
        exact absurd isDigit (by decide)
      · rintro rest plus
        cases plus
        exact absurd isDigit (by decide)

theorem stoi_decimal {value : Nat} (inRange : value < 2 ^ 31) :
    stoi (decimal value) = .ok value := by
  have digits : ∀ char ∈ decimal value, char.isDigit = true :=
    fun _ member => isDigit_of_mem_decimal member
  have whole : (decimal value).takeWhile Char.isDigit = decimal value :=
    List.takeWhile_eq_self_iff.mpr digits
  have isValue : Nat.ofDigitChars 10 (decimal value) 0 = value :=
    Nat.ofDigitChars_ten_toDigits
  have nonempty : decimal value ≠ [] := Nat.toDigits_ne_nil
  have bounded : ¬ ((value : Int) < -2 ^ 31 ∨ 2 ^ 31 ≤ (value : Int)) := by
    omega
  simp only [stoi, cStr_of_isDigit digits, splitSign_of_isDigit digits, whole,
    isValue, if_neg nonempty, Int.one_mul, if_neg bounded]

/-- The digits of a number, behind a minus sign where it is negative. -/
def signed (value : Int) : List Char :=
  if value < 0 then '-' :: decimal value.natAbs else decimal value.natAbs

theorem notMem_signed {char : Char} (noDigit : char.isDigit = false)
    (noSign : char ≠ '-') (value : Int) : char ∉ signed value := by
  rw [signed]
  split
  · rw [List.mem_cons]
    rintro (sign | digit)
    · exact noSign sign
    · exact notMem_decimal noDigit _ digit
  · exact notMem_decimal noDigit _

theorem stoi_minus {value : Nat} (inRange : value ≤ 2 ^ 31) :
    stoi ('-' :: decimal value) = .ok (-value) := by
  have digits : ∀ char ∈ decimal value, char.isDigit = true :=
    fun _ member => isDigit_of_mem_decimal member
  have shown : cStr ('-' :: decimal value) = '-' :: decimal value :=
    (List.takeWhile_cons_of_pos rfl).trans
      (congrArg ('-' :: ·) (cStr_of_isDigit digits))
  have whole : (decimal value).takeWhile Char.isDigit = decimal value :=
    List.takeWhile_eq_self_iff.mpr digits
  have isValue : Nat.ofDigitChars 10 (decimal value) 0 = value :=
    Nat.ofDigitChars_ten_toDigits
  have nonempty : decimal value ≠ [] := Nat.toDigits_ne_nil
  have split : splitSign (('-' :: decimal value).dropWhile isSpace) =
      (-1, decimal value) := rfl
  have bounded : ¬ (-(value : Int) < -2 ^ 31 ∨ 2 ^ 31 ≤ -(value : Int)) := by
    omega
  simp only [stoi, shown, split, whole, isValue, if_neg nonempty,
    Int.neg_one_mul, if_neg bounded]

theorem stoi_signed {value : Int} (least : -2 ^ 31 ≤ value)
    (greatest : value < 2 ^ 31) : stoi (signed value) = .ok value := by
  rw [signed]
  split
  · have isValue : -(value.natAbs : Int) = value := by omega
    rw [stoi_minus (by omega), isValue]
  · have isValue : (value.natAbs : Int) = value := by omega
    rw [stoi_decimal (by omega), isValue]

/-! ## Internet addresses -/

def htons (value : BitVec 16) : BitVec 16 := lane value 0 ++ lane value 1

theorem htons_eq_zero_iff (value : BitVec 16) : htons value = 0 ↔ value = 0 := by
  have zero : (0 : BitVec 16) = 0#8 ++ 0#8 := rfl
  have whole : value = lane value 1 ++ lane value 0 :=
    BitVec.extractLsb'_eq_self.symm.trans (extract_two value 0)
  constructor
  · intro isZero
    rw [htons, zero, append_inj] at isZero
    rw [whole, isZero.1, isZero.2, zero]
  · rintro rfl
    rfl

def htonl (value : BitVec 32) : BitVec 32 :=
  lane value 0 ++ lane value 1 ++ lane value 2 ++ lane value 3

def hexValue (char : Char) : Option Nat :=
  if char.isDigit then some (char.toNat - '0'.toNat)
  else if 'a' ≤ char ∧ char ≤ 'f' then some (char.toNat - 'a'.toNat + 10)
  else if 'A' ≤ char ∧ char ≤ 'F' then some (char.toNat - 'A'.toNat + 10)
  else none

def partValue (part : List Char) : Option Nat :=
  match part with
  | [] => none
  | '0' :: 'x' :: digits | '0' :: 'X' :: digits =>
      if digits = [] then none
      else (digits.mapM hexValue).map
        (List.foldl (fun value digit => 16 * value + digit) 0)
  | '0' :: digits =>
      if digits.all fun char => '0' ≤ char && char ≤ '7' then
        some (Nat.ofDigitChars 8 digits 0)
      else none
  | digits =>
      if digits.all Char.isDigit then some (Nat.ofDigitChars 10 digits 0)
      else none

/-- Every part but the last gives one byte of the address. The last part gives
all the bytes that remain. -/
def addressValue : Nat → List Nat → Option Nat
  | 0, _ => none
  | _, [] => none
  | bytes + 1, [last] => if last < 256 ^ (bytes + 1) then some last else none
  | bytes + 1, byte :: rest =>
      if byte < 256 then
        (addressValue bytes rest).map (byte * 256 ^ bytes + ·)
      else none

def inaddrNone : BitVec 32 := 0xFFFFFFFF

/-- `inet_addr`. The address ends at the first white space. -/
def inetAddr (text : List Char) : BitVec 32 :=
  let subject := (cStr text).takeWhile fun char => !isSpace char
  match ((subject.splitOn '.').mapM partValue).bind (addressValue 4) with
  | some value => htonl (BitVec.ofNat 32 value)
  | none => inaddrNone

def dottedQuad (a b c d : BitVec 8) : List Char :=
  ['.'].intercalate
    [decimal a.toNat, decimal b.toNat, decimal c.toNat, decimal d.toNat]

theorem decimal_head_ne_zero {value : Nat} (positive : 0 < value) :
    ∃ head tail, decimal value = head :: tail ∧ head ≠ '0' := by
  induction value using Nat.strongRecOn with
  | _ value induction =>
      rw [decimal, Nat.toDigits_eq_if (by decide)]
      split
      · next single =>
          exact ⟨Nat.digitChar value, [], rfl,
            fun zero => positive.ne' (Nat.digitChar_eq_zero.mp zero)⟩
      · next several =>
          rcases induction (value / 10) (by omega) (by omega) with
            ⟨head, tail, shape, nonzero⟩
          rw [← decimal, shape]
          exact ⟨head, tail ++ _, rfl, nonzero⟩

theorem partValue_decimal (value : Nat) :
    partValue (decimal value) = some value := by
  rcases Nat.eq_zero_or_pos value with rfl | positive
  · decide
  · rcases decimal_head_ne_zero positive with ⟨head, tail, shape, nonzero⟩
    have digits : (decimal value).all Char.isDigit = true :=
      List.all_eq_true.mpr fun _ member => isDigit_of_mem_decimal member
    have isValue : Nat.ofDigitChars 10 (decimal value) 0 = value :=
      Nat.ofDigitChars_ten_toDigits
    rw [shape] at digits isValue ⊢
    rw [partValue]
    · rw [if_pos digits, isValue]
    all_goals simp [nonzero]

theorem htonl_append (a b c d : BitVec 8) :
    htonl (a ++ b ++ c ++ d) = d ++ c ++ b ++ a := by
  have whole : (a ++ b ++ c ++ d).extractLsb' (8 * 0) 32 = a ++ b ++ c ++ d :=
    BitVec.extractLsb'_eq_self
  rw [extract_four, append_inj, append_inj, append_inj] at whole
  rcases whole with ⟨⟨⟨isA, isB⟩, isC⟩, isD⟩
  rw [htonl, isA, isB, isC, isD]

theorem addressValue_bytes (a b c d : BitVec 8) :
    addressValue 4 [a.toNat, b.toNat, c.toNat, d.toNat] =
      some (a ++ b ++ c ++ d).toNat := by
  have boundA := a.isLt
  have boundB := b.isLt
  have boundC := c.isLt
  have boundD := d.isLt
  simp only [addressValue]
  rw [if_pos (by omega), if_pos (by omega), if_pos (by omega),
    if_pos (by omega), toNat_append_byte, toNat_append_byte,
    toNat_append_byte]
  simp only [Option.map_some, Option.some.injEq]
  omega

theorem of_mem_dottedQuad {a b c d : BitVec 8} {char : Char}
    (member : char ∈ dottedQuad a b c d) : char.isDigit = true ∨ char = '.' := by
  simp only [dottedQuad, List.intercalate, List.intersperse, List.flatten_cons,
    List.flatten_nil, List.append_nil, List.mem_append, List.mem_singleton]
    at member
  rcases member with digit | dot | digit | dot | digit | dot | digit
  any_goals exact .inl (isDigit_of_mem_decimal digit)
  all_goals exact .inr dot

theorem subject_dottedQuad (a b c d : BitVec 8) :
    (cStr (dottedQuad a b c d)).takeWhile (fun char => !isSpace char) =
      dottedQuad a b c d := by
  have shown : cStr (dottedQuad a b c d) = dottedQuad a b c d := by
    apply List.takeWhile_eq_self_iff.mpr
    intro char member
    apply bne_iff_ne.mpr
    rintro rfl
    exact absurd (of_mem_dottedQuad member) (by decide)
  rw [shown]
  apply List.takeWhile_eq_self_iff.mpr
  intro char member
  rcases of_mem_dottedQuad member with digit | rfl
  · rw [not_isSpace_of_isDigit digit]
    rfl
  · decide

theorem length_decimal_byte (byte : BitVec 8) :
    (decimal byte.toNat).length ≤ 3 := by
  have bound := byte.isLt
  exact (Nat.length_toDigits_le_iff (by omega) (by omega)).mpr (by omega)

theorem length_dottedQuad (a b c d : BitVec 8) :
    (dottedQuad a b c d).length ≤ 15 := by
  have lengthA := length_decimal_byte a
  have lengthB := length_decimal_byte b
  have lengthC := length_decimal_byte c
  have lengthD := length_decimal_byte d
  simp [dottedQuad, List.intercalate, List.intersperse]
  omega

/-- The bytes of a dotted quad become the bytes of the address, the first one
in the lowest lane. -/
theorem inetAddr_dottedQuad (a b c d : BitVec 8) :
    inetAddr (dottedQuad a b c d) = d ++ c ++ b ++ a := by
  have parts : (dottedQuad a b c d).splitOn '.' =
      [decimal a.toNat, decimal b.toNat, decimal c.toNat, decimal d.toNat] := by
    apply List.splitOn_intercalate
    · intro part member
      simp only [List.mem_cons, List.not_mem_nil, or_false] at member
      rcases member with rfl | rfl | rfl | rfl
      all_goals exact notMem_decimal (by decide) _
    · exact List.cons_ne_nil _ _
  have values : [decimal a.toNat, decimal b.toNat, decimal c.toNat,
      decimal d.toNat].mapM partValue =
        some [a.toNat, b.toNat, c.toNat, d.toNat] := by
    simp [partValue_decimal]
  rw [inetAddr]
  simp only [subject_dottedQuad, parts, values, Option.bind_some,
    addressValue_bytes, BitVec.ofNat_toNat, BitVec.setWidth_eq, htonl_append]

end CText
