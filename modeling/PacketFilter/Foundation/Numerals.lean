import PacketFilter.Foundation.CText

/-! # Numerals

The texts that `std::stoi` reads a number from, and among them those that are
the decimal numeral of that number and nothing else.
-/

namespace CText

variable {text : List Char}

/-- A text as `std::stoi` takes it apart: white space, a sign, the digits, and
a rest that is ignored. -/
structure Numeral (text : List Char) where
  blanks : List Char
  sign : List Char
  digits : List Char
  rest : List Char
  split : text = blanks ++ (sign ++ (digits ++ rest))
  blank : ∀ char ∈ blanks, isSpace char = true
  signed : sign = [] ∨ sign = ['+'] ∨ sign = ['-']
  nonempty : digits ≠ []
  digit : ∀ char ∈ digits, char.isDigit = true
  longest : ∀ char ∈ rest.head?, char.isDigit = false

namespace Numeral

def value (numeral : Numeral text) : Int :=
  (if numeral.sign = ['-'] then -1 else 1) *
    Nat.ofDigitChars 10 numeral.digits 0

def Fits (numeral : Numeral text) : Prop :=
  -2 ^ 31 ≤ numeral.value ∧ numeral.value < 2 ^ 31

instance (numeral : Numeral text) : Decidable numeral.Fits :=
  inferInstanceAs (Decidable (_ ∧ _))

structure Plain (numeral : Numeral text) : Prop where
  blanks : numeral.blanks = []
  sign : numeral.sign = []
  rest : numeral.rest = []
  leading : numeral.digits.head? ≠ some '0'

end Numeral

/-! ## What std::stoi accepts -/

theorem takeWhile_append_stop {test : Char → Bool} {first second : List Char}
    (passes : ∀ char ∈ first, test char = true)
    (stops : ∀ char ∈ second.head?, test char = false) :
    (first ++ second).takeWhile test = first := by
  rw [List.takeWhile_append_of_pos passes]
  cases second with
  | nil => simp
  | cons head tail => simp [stops head rfl]

theorem dropWhile_append_stop {test : Char → Bool} {first second : List Char}
    (passes : ∀ char ∈ first, test char = true)
    (stops : ∀ char ∈ second.head?, test char = false) :
    (first ++ second).dropWhile test = second := by
  rw [List.dropWhile_append_of_pos passes]
  cases second with
  | nil => simp
  | cons head tail => simp [stops head rfl]

theorem head?_dropWhile_stops {test : Char → Bool} {char : Char}
    (isHead : char ∈ (text.dropWhile test).head?) : test char = false := by
  have stops := List.head?_dropWhile_not test text
  rw [Option.mem_def.mp isHead] at stops
  simpa using stops

theorem cStr_append {first : List Char}
    (shown : ∀ char ∈ first, char ≠ Char.ofNat 0) (second : List Char) :
    cStr (first ++ second) = first ++ cStr second := by
  apply List.takeWhile_append_of_pos
  intro char member
  simpa using shown char member

theorem head?_cStr {char : Char} (isHead : char ∈ (cStr text).head?) :
    char ∈ text.head? := by
  cases text with
  | nil => simp [cStr] at isHead
  | cons head tail =>
      by_cases stop : head = Char.ofNat 0
      · simp [cStr, stop] at isHead
      · simpa [cStr, stop] using isHead

theorem not_nul_of_isSpace {char : Char} (space : isSpace char = true) :
    char ≠ Char.ofNat 0 := by
  rintro rfl
  exact absurd space (by decide)

theorem not_nul_of_isDigit {char : Char} (digit : char.isDigit = true) :
    char ≠ Char.ofNat 0 := by
  rintro rfl
  exact absurd digit (by decide)

theorem splitSign_signed {sign unsigned : List Char}
    (signed : sign = [] ∨ sign = ['+'] ∨ sign = ['-'])
    (starts : ∀ char ∈ unsigned.head?, char.isDigit = true) :
    splitSign (sign ++ unsigned) =
      (if sign = ['-'] then -1 else 1, unsigned) := by
  rcases signed with rfl | rfl | rfl
  · cases unsigned with
    | nil => rfl
    | cons head tail =>
        have digit := starts head rfl
        rw [List.nil_append, splitSign]
        · rfl
        · rintro rest minus
          cases minus
          exact absurd digit (by decide)
        · rintro rest plus
          cases plus
          exact absurd digit (by decide)
  · rfl
  · rfl

theorem exists_splitSign (subject : List Char) :
    ∃ sign, (sign = [] ∨ sign = ['+'] ∨ sign = ['-']) ∧
      subject = sign ++ (splitSign subject).2 ∧
      (splitSign subject).1 = if sign = ['-'] then -1 else 1 := by
  rw [splitSign.eq_def]
  split
  · exact ⟨['-'], by simp, rfl, rfl⟩
  · exact ⟨['+'], by simp, rfl, rfl⟩
  · exact ⟨[], by simp, rfl, rfl⟩

namespace Numeral

theorem not_nul_sign (numeral : Numeral text) :
    ∀ char ∈ numeral.sign, char ≠ Char.ofNat 0 := by
  intro char member
  rcases numeral.signed with none | plus | minus
  · simp [none] at member
  · simp only [plus, List.mem_singleton] at member
    simp [member]
  · simp only [minus, List.mem_singleton] at member
    simp [member]

theorem starts_with_digit (numeral : Numeral text) (behind : List Char) :
    ∀ char ∈ (numeral.digits ++ behind).head?, char.isDigit = true := by
  intro char isHead
  cases digits : numeral.digits with
  | nil => exact absurd digits numeral.nonempty
  | cons head tail =>
      rw [digits] at isHead
      rcases Option.some.inj isHead with rfl
      exact numeral.digit head (digits ▸ List.mem_cons_self)

theorem starts_without_blank (numeral : Numeral text) (behind : List Char) :
    ∀ char ∈ (numeral.sign ++ (numeral.digits ++ behind)).head?,
      isSpace char = false := by
  intro char isHead
  rcases numeral.signed with none | plus | minus
  · rw [none] at isHead
    exact not_isSpace_of_isDigit (numeral.starts_with_digit behind char isHead)
  · rw [plus] at isHead
    cases isHead
    decide
  · rw [minus] at isHead
    cases isHead
    decide

theorem stoi_eq (numeral : Numeral text) :
    stoi text =
      if numeral.Fits then .ok numeral.value else .error .outOfRange := by
  have shown : cStr text = numeral.blanks ++ (numeral.sign ++
      (numeral.digits ++ cStr numeral.rest)) := by
    rw [← cStr_append
        fun char member => not_nul_of_isDigit (numeral.digit char member),
      ← cStr_append numeral.not_nul_sign, ← cStr_append
        fun char member => not_nul_of_isSpace (numeral.blank char member),
      ← numeral.split]
  have unblanked : (cStr text).dropWhile isSpace =
      numeral.sign ++ (numeral.digits ++ cStr numeral.rest) := by
    rw [shown]
    exact dropWhile_append_stop numeral.blank (numeral.starts_without_blank _)
  have digits : (numeral.digits ++ cStr numeral.rest).takeWhile Char.isDigit =
      numeral.digits :=
    takeWhile_append_stop numeral.digit
      fun char isHead => numeral.longest char (head?_cStr isHead)
  rw [stoi, unblanked, splitSign_signed numeral.signed
    (numeral.starts_with_digit _)]
  simp only [digits, if_neg numeral.nonempty]
  by_cases fits : numeral.Fits
  · rw [if_pos fits, if_neg]
    · rfl
    · exact not_or.mpr ⟨not_lt.mpr fits.1, not_le.mpr fits.2⟩
  · rw [if_neg fits, if_pos]
    by_contra inRange
    have bounds := not_or.mp inRange
    exact fits ⟨not_lt.mp bounds.1, not_le.mp bounds.2⟩

end Numeral

theorem exists_numeral {value : Int} (accepted : stoi text = .ok value) :
    Nonempty (Numeral text) := by
  rcases exists_splitSign ((cStr text).dropWhile isSpace) with
    ⟨sign, signed, isSubject, -⟩
  generalize isUnsigned : (splitSign ((cStr text).dropWhile isSpace)).2 =
    unsigned at isSubject
  have found : unsigned.takeWhile Char.isDigit ≠ [] := by
    intro none
    simp [stoi, isUnsigned, none] at accepted
  have shown : cStr text = (cStr text).takeWhile isSpace ++ (sign ++
      (unsigned.takeWhile Char.isDigit ++ unsigned.dropWhile Char.isDigit)) := by
    rw [List.takeWhile_append_dropWhile, ← isSubject,
      List.takeWhile_append_dropWhile]
  let hidden := text.dropWhile (· != Char.ofNat 0)
  exact ⟨{
    blanks := (cStr text).takeWhile isSpace
    sign := sign
    digits := unsigned.takeWhile Char.isDigit
    rest := unsigned.dropWhile Char.isDigit ++ hidden
    split := by
      calc
        text = cStr text ++ hidden := List.takeWhile_append_dropWhile.symm
        _ = _ ++ hidden := congrArg (· ++ hidden) shown
        _ = _ := by simp only [List.append_assoc]
    blank := fun char member => List.mem_takeWhile_imp member
    signed := signed
    nonempty := found
    digit := fun char member => List.mem_takeWhile_imp member
    longest := by
      intro char isHead
      cases after : unsigned.dropWhile Char.isDigit with
      | nil =>
          rw [after] at isHead
          have ends := head?_dropWhile_stops isHead
          simp only [bne_eq_false_iff_eq] at ends
          subst ends
          decide
      | cons head tail =>
          rw [after] at isHead
          rcases Option.some.inj isHead with rfl
          exact head?_dropWhile_stops (by rw [after]; rfl) }⟩

theorem stoi_eq_ok_iff {value : Int} :
    stoi text = .ok value ↔
      ∃ numeral : Numeral text, numeral.Fits ∧ numeral.value = value := by
  constructor
  · intro accepted
    rcases exists_numeral accepted with ⟨numeral⟩
    rw [numeral.stoi_eq] at accepted
    split at accepted
    · next fits => exact ⟨numeral, fits, Except.ok.inj accepted⟩
    · cases accepted
  · rintro ⟨numeral, fits, rfl⟩
    rw [numeral.stoi_eq, if_pos fits]

/-! ## Decimal numerals -/

theorem digitChar_toNat {char : Char} (digit : char.isDigit = true) :
    Nat.digitChar (char.toNat - 48) = char := by
  have bounds := toNat_of_isDigit digit
  apply Char.toNat_inj.mp
  rw [Nat.toNat_digitChar_of_lt_ten (by omega)]
  omega

theorem decimal_ofDigitChars {digits : List Char} (nonempty : digits ≠ [])
    (digit : ∀ char ∈ digits, char.isDigit = true)
    (leading : digits.head? ≠ some '0') :
    decimal (Nat.ofDigitChars 10 digits 0) = digits := by
  induction digits using List.reverseRecOn with
  | nil => exact absurd rfl nonempty
  | append_singleton front last induction =>
      have isDigit := digit last (by simp)
      have bounds := toNat_of_isDigit isDigit
      have isLast := digitChar_toNat isDigit
      have zero : '0'.toNat = 48 := rfl
      rw [Nat.ofDigitChars_append, Nat.ofDigitChars_cons, Nat.ofDigitChars_nil,
        zero, decimal, Nat.toDigits_eq_if (by decide)]
      cases front with
      | nil =>
          rw [Nat.ofDigitChars_nil, if_pos (by omega), Nat.mul_zero,
            Nat.zero_add, isLast, List.nil_append]
      | cons head tail =>
          have isFront := induction (List.cons_ne_nil _ _)
            (fun char member => digit char (List.mem_append_left _ member))
            (by simpa using leading)
          -- the digits in front of the last one are not all zero
          have positive : 0 < Nat.ofDigitChars 10 (head :: tail) 0 := by
            rw [Nat.pos_iff_ne_zero]
            intro isZero
            rw [isZero] at isFront
            simp [← isFront, decimal] at leading
          generalize Nat.ofDigitChars 10 (head :: tail) 0 = value at *
          have quotient : (10 * value + (last.toNat - 48)) / 10 = value := by
            omega
          have remainder : (10 * value + (last.toNat - 48)) % 10 =
              last.toNat - 48 := by omega
          rw [if_neg (by omega), quotient, remainder, isLast, ← decimal, isFront]

namespace Numeral

theorem text_of_plain {numeral : Numeral text} (plain : numeral.Plain) :
    text = numeral.digits := by
  have split := numeral.split
  rw [plain.blanks, plain.sign, plain.rest] at split
  simpa using split

theorem eq_decimal {numeral : Numeral text} (plain : numeral.Plain) :
    ∃ number : Nat, numeral.value = number ∧ text = decimal number := by
  refine ⟨Nat.ofDigitChars 10 numeral.digits 0, ?_, ?_⟩
  · simp [value, plain.sign]
  · rw [decimal_ofDigitChars numeral.nonempty numeral.digit plain.leading]
    exact text_of_plain plain

/-- There is one way to take a decimal numeral apart. -/
theorem plain_of_decimal {number : Nat} (positive : 0 < number)
    (numeral : Numeral (decimal number)) :
    numeral.Plain ∧ numeral.value = number := by
  have digit : ∀ char ∈ numeral.blanks ++ (numeral.sign ++
      (numeral.digits ++ numeral.rest)), char.isDigit = true := by
    rw [← numeral.split]
    exact fun char member => isDigit_of_mem_decimal member
  have blanks : numeral.blanks = [] := by
    rw [List.eq_nil_iff_forall_not_mem]
    intro char member
    have space := numeral.blank char member
    rw [not_isSpace_of_isDigit (digit char (by simp [member]))] at space
    cases space
  have sign : numeral.sign = [] := by
    rcases numeral.signed with none | plus | minus
    · exact none
    · exact absurd (digit '+' (by simp [plus])) (by decide)
    · exact absurd (digit '-' (by simp [minus])) (by decide)
  have rest : numeral.rest = [] := by
    cases isRest : numeral.rest with
    | nil => rfl
    | cons head tail =>
        have stops := numeral.longest head (by rw [isRest]; rfl)
        rw [digit head (by simp [isRest])] at stops
        cases stops
  have digits : numeral.digits = decimal number := by
    have split := numeral.split
    rw [blanks, sign, rest] at split
    simpa using split.symm
  have isNumber : Nat.ofDigitChars 10 (decimal number) 0 = number :=
    Nat.ofDigitChars_ten_toDigits
  refine ⟨⟨blanks, sign, rest, ?_⟩, ?_⟩
  · rcases decimal_head_ne_zero positive with ⟨head, tail, shape, nonzero⟩
    simpa [digits, shape] using nonzero
  · simp [value, sign, digits, isNumber]

end Numeral

/-! ## Numerals of a fixed width -/

def fixedDecimal : Nat → Nat → List Char
  | 0, _ => []
  | width + 1, number =>
      fixedDecimal width (number / 10) ++ [Nat.digitChar (number % 10)]

@[simp] theorem length_fixedDecimal (width number : Nat) :
    (fixedDecimal width number).length = width := by
  induction width generalizing number with
  | zero => rfl
  | succ width induction => simp [fixedDecimal, induction]

theorem isDigit_of_mem_fixedDecimal {width number : Nat} {char : Char}
    (member : char ∈ fixedDecimal width number) : char.isDigit = true := by
  induction width generalizing number with
  | zero => cases member
  | succ width induction =>
      rw [fixedDecimal, List.mem_append, List.mem_singleton] at member
      rcases member with front | rfl
      · exact induction front
      · have digit : ∀ last < 10, (Nat.digitChar last).isDigit = true := by
          decide
        exact digit _ (Nat.mod_lt _ (by decide))

theorem ofDigitChars_fixedDecimal (width number : Nat) :
    Nat.ofDigitChars 10 (fixedDecimal width number) 0 = number % 10 ^ width := by
  induction width generalizing number with
  | zero => simp [fixedDecimal, Nat.mod_one]
  | succ width induction =>
      have last : number % 10 < 10 := Nat.mod_lt _ (by decide)
      calc
        Nat.ofDigitChars 10 (fixedDecimal (width + 1) number) 0 =
            10 * (number / 10 % 10 ^ width) + number % 10 := by
          rw [fixedDecimal, Nat.ofDigitChars_append, induction,
            Nat.ofDigitChars_cons_digitChar_of_lt_ten last,
            Nat.ofDigitChars_nil]
        _ = number % (10 * 10 ^ width) := by
          rw [Nat.mod_mul, Nat.add_comm]
        _ = number % 10 ^ (width + 1) := by
          rw [Nat.pow_succ, Nat.mul_comm]

end CText
