import PacketFilter.Foundation.Numerals
import PacketFilter.Software.Logging

/-! # The time of a record

`make_int` fills a fixed number of cells from the right, and its calls in
`current_time` tile the buffer together with the separators.
-/

namespace PacketFilter.Contracts

open CText CBuffer Software

/-! ## Numbers -/

theorem intDigit_natCast {digit : Nat} (below : digit < 10) :
    intDigit digit = Nat.digitChar digit := by
  apply Char.toNat_inj.mp
  have code : ((intDigit digit).toNat : Int) = 48 + digit :=
    toNat_intDigit (by omega) (by omega)
  rw [Nat.toNat_digitChar_of_lt_ten below]
  omega

theorem intDigits_natCast (val digits : Nat) :
    intDigits val digits = fixedDecimal digits val := by
  induction digits generalizing val with
  | zero => rfl
  | succ digits induction =>
      have quotient : (val : Int).tdiv 10 = (val / 10 : Nat) := rfl
      have remainder : (val : Int).tmod 10 = (val % 10 : Nat) := rfl
      rw [intDigits, fixedDecimal, quotient, remainder, induction,
        intDigit_natCast (Nat.mod_lt _ (by decide))]

theorem index_makeInt (buf : Nat) (val : Int) (digits : Nat) :
    (makeInt buf val digits).map Store.index =
      (List.range' buf digits).reverse := by
  induction digits generalizing val with
  | zero => rfl
  | succ digits induction =>
      rw [makeInt, List.map_cons, induction, List.range'_concat,
        List.reverse_append]
      simp

theorem char_of_mem_makeInt {buf val digits : Nat} {store : Store}
    (member : store ∈ makeInt buf val digits) :
    store.char.isDigit = true := by
  induction digits generalizing val with
  | zero => cases member
  | succ digits induction =>
      have quotient : (val : Int).tdiv 10 = (val / 10 : Nat) := rfl
      have remainder : (val : Int).tmod 10 = (val % 10 : Nat) := rfl
      rw [makeInt, quotient, remainder,
        intDigit_natCast (Nat.mod_lt _ (by decide))] at member
      rcases List.mem_cons.mp member with rfl | later
      · have last : Nat.digitChar (val % 10) ∈ fixedDecimal 1 val := by
          simp [fixedDecimal]
        exact isDigit_of_mem_fixedDecimal last
      · exact induction later

/-- Some cells hold nothing but digits, which read as `value`. -/
structure Reads (memory : Memory) (start count : Nat) (value : Int) : Prop where
  isDigit : ∀ char ∈ cells memory start count, char.isDigit = true
  isValue : Nat.ofDigitChars 10 (cells memory start count) 0 = value

theorem reads_storeText (memory : Memory) (start : Nat) {text : List Char}
    {offset val digits : Nat} (within : offset + digits ≤ text.length)
    (piece : (text.drop offset).take digits = intDigits val digits) :
    Reads (stored memory (storeText start text)) (start + offset) digits
      (val % 10 ^ digits : Nat) := by
  have held := cells_stored_storeText memory start within
  rw [piece, intDigits_natCast] at held
  constructor
  · rw [held]
    exact fun char member => isDigit_of_mem_fixedDecimal member
  · rw [held, ofDigitChars_fixedDecimal]

/-- What `make_int` does to a buffer. -/
structure FormatsInt (buf val digits : Nat) : Prop where
  cells : (makeInt buf val digits).map Store.index =
    (List.range' buf digits).reverse
  isDigit : ∀ store ∈ makeInt buf val digits, store.char.isDigit = true
  reads : ∀ memory,
    Reads (stored memory (makeInt buf val digits)) buf digits
      (val % 10 ^ digits : Nat)
  unchanged : ∀ memory index, ¬ (buf ≤ index ∧ index < buf + digits) →
    stored memory (makeInt buf val digits) index = memory index

theorem formatsInt (buf val digits : Nat) : FormatsInt buf val digits where
  cells := index_makeInt buf val digits
  isDigit _ member := char_of_mem_makeInt member
  reads memory := by
    have piece : ((intDigits val digits).drop 0).take digits =
        intDigits val digits := by simp
    rw [stored_makeInt]
    exact reads_storeText memory buf (by simp) piece
  unchanged memory index outside := by
    rw [stored_makeInt, stored_storeText]
    split
    · next behind =>
        have beyond : (intDigits val digits).length ≤ index - buf := by
          rw [length_intDigits]
          omega
        rw [List.getD_eq_getElem?_getD, List.getElem?_eq_none beyond]
        rfl
    · rfl

/-! ## Times -/

/-- What `localtime_r` and `gettimeofday` fill in, in the years of four
digits. -/
structure BrokenDownTime where
  time : LogTime
  month : 0 ≤ time.tmMon ∧ time.tmMon ≤ 11
  day : 1 ≤ time.tmMday ∧ time.tmMday ≤ 31
  hour : 0 ≤ time.tmHour ∧ time.tmHour ≤ 23
  minute : 0 ≤ time.tmMin ∧ time.tmMin ≤ 59
  -- a leap second is the sixtieth
  second : 0 ≤ time.tmSec ∧ time.tmSec ≤ 60
  year : 0 ≤ time.tmYear + 1900 ∧ time.tmYear + 1900 ≤ 9999
  microsecond : 0 ≤ time.tvUsec ∧ time.tvUsec < 10 ^ 6

theorem index_currentTime (time : LogTime) :
    ((currentTime time).map Store.index).Perm (List.range timeBufSize) := by
  simp only [currentTime, List.map_append, index_makeInt]
  decide

structure TimeField where
  start : Nat
  digits : Nat
  val : Int

def timeFields (time : LogTime) : List TimeField :=
  [⟨0, 4, time.tmYear + 1900⟩, ⟨5, 2, time.tmMon + 1⟩, ⟨8, 2, time.tmMday⟩,
    ⟨11, 2, time.tmHour⟩, ⟨14, 2, time.tmMin⟩, ⟨17, 2, time.tmSec⟩,
    ⟨20, 3, time.tvUsec.tdiv 1000⟩]

theorem timeFields_within (time : LogTime) :
    ∀ field ∈ timeFields time, field.start + field.digits ≤ timeBufSize := by
  simp [timeFields, timeBufSize]

theorem timeFields_piece (time : LogTime) :
    ∀ field ∈ timeFields time,
      ((timeText time ++ [nul]).drop field.start).take field.digits =
        intDigits field.val field.digits := by
  simp [timeFields, timeText, List.drop_append, List.drop_eq_nil_of_le]

theorem BrokenDownTime.thousandths (broken : BrokenDownTime) :
    broken.time.tvUsec.tdiv 1000 = broken.time.tvUsec / 1000 :=
  Int.tdiv_eq_ediv_of_nonneg broken.microsecond.1

theorem BrokenDownTime.bounds (broken : BrokenDownTime) :
    ∀ field ∈ timeFields broken.time,
      0 ≤ field.val ∧ field.val < 10 ^ field.digits := by
  have year := broken.year
  have month := broken.month
  have day := broken.day
  have hour := broken.hour
  have minute := broken.minute
  have second := broken.second
  have microsecond := broken.microsecond
  simp only [timeFields, broken.thousandths, List.forall_mem_cons]
  refine ⟨?_, ?_, ?_, ?_, ?_, ?_, ?_, by simp⟩ <;> constructor <;> omega

theorem BrokenDownTime.reads (broken : BrokenDownTime) (memory : Memory)
    (field : TimeField) (member : field ∈ timeFields broken.time) :
    Reads (stored memory (currentTime broken.time)) field.start field.digits
      field.val := by
  have bounds := broken.bounds field member
  have within := timeFields_within broken.time field member
  have piece := timeFields_piece broken.time field member
  rcases Int.eq_ofNat_of_zero_le bounds.1 with ⟨number, isNumber⟩
  rw [isNumber] at bounds piece ⊢
  have inside : field.start + field.digits ≤
      (timeText broken.time ++ [nul]).length := by
    rw [List.length_append, length_timeText]
    exact within
  have small : number < 10 ^ field.digits := by exact_mod_cast bounds.2
  have found := reads_storeText memory 0 inside piece
  rw [Nat.zero_add, Nat.mod_eq_of_lt small] at found
  rw [stored_currentTime]
  exact found

/-- What `current_time` leaves in its buffer. -/
structure ShowsTime (time : LogTime) : Prop where
  cells : ((currentTime time).map Store.index).Perm (List.range timeBufSize)
  unchanged : ∀ memory index, timeBufSize ≤ index →
    stored memory (currentTime time) index = memory index
  year : ∀ memory,
    Reads (stored memory (currentTime time)) 0 4 (time.tmYear + 1900)
  month : ∀ memory,
    Reads (stored memory (currentTime time)) 5 2 (time.tmMon + 1)
  day : ∀ memory, Reads (stored memory (currentTime time)) 8 2 time.tmMday
  hour : ∀ memory, Reads (stored memory (currentTime time)) 11 2 time.tmHour
  minute : ∀ memory, Reads (stored memory (currentTime time)) 14 2 time.tmMin
  second : ∀ memory, Reads (stored memory (currentTime time)) 17 2 time.tmSec
  millisecond : ∀ memory,
    Reads (stored memory (currentTime time)) 20 3 (time.tvUsec / 1000)

theorem showsTime (broken : BrokenDownTime) : ShowsTime broken.time where
  cells := index_currentTime broken.time
  unchanged memory index outside := by
    have beyond : (timeText broken.time ++ [nul]).length ≤ index := by
      rw [List.length_append, length_timeText]
      exact outside
    rw [stored_currentTime, stored_storeText, if_pos (Nat.zero_le _),
      Nat.sub_zero, List.getD_eq_getElem?_getD, List.getElem?_eq_none beyond]
    rfl
  year memory := broken.reads memory ⟨0, 4, _⟩ (by simp [timeFields])
  month memory := broken.reads memory ⟨5, 2, _⟩ (by simp [timeFields])
  day memory := broken.reads memory ⟨8, 2, _⟩ (by simp [timeFields])
  hour memory := broken.reads memory ⟨11, 2, _⟩ (by simp [timeFields])
  minute memory := broken.reads memory ⟨14, 2, _⟩ (by simp [timeFields])
  second memory := broken.reads memory ⟨17, 2, _⟩ (by simp [timeFields])
  millisecond memory := by
    rw [← broken.thousandths]
    exact broken.reads memory ⟨20, 3, broken.time.tvUsec.tdiv 1000⟩
      (by simp [timeFields])

/-- `make_int` fills its cells with the last digits of the number, and
`current_time` all of its buffer with the time. -/
theorem time_formatted :
    (∀ buf val digits : Nat, FormatsInt buf val digits) ∧
      ∀ broken : BrokenDownTime, ShowsTime broken.time :=
  ⟨formatsInt, showsTime⟩

/-- The last moment of 2024. -/
def newYearsEve : BrokenDownTime where
  time := ⟨124, 11, 31, 23, 59, 59, 999999⟩
  month := by decide
  day := by decide
  hour := by decide
  minute := by decide
  second := by decide
  year := by decide
  microsecond := by decide

theorem time_formatted_sample : ShowsTime newYearsEve.time :=
  time_formatted.2 newYearsEve

end PacketFilter.Contracts
