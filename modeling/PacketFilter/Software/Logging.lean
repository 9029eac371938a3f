import PacketFilter.Foundation.CBuffer

/-! # Log

How `Log::log` puts a record together in a buffer on its stack.
-/

namespace PacketFilter.Software

open CText CBuffer

inductive LogLevel where
  | fatal
  | error
  | warn
  | info
  | debug
  deriving DecidableEq

namespace LogLevel

def value : LogLevel → Int
  | fatal => 0
  | error => 1
  | warn => 2
  | info => 3
  | debug => 4

def str : LogLevel → List Char
  | fatal => ['F']
  | error => ['E']
  | warn => ['W']
  | info => ['I']
  | debug => ['D']

end LogLevel

/-! ## The time -/

structure LogTime where
  tmYear : Int
  tmMon : Int
  tmMday : Int
  tmHour : Int
  tmMin : Int
  tmSec : Int
  tvUsec : Int

def intDigit (digit : Int) : Char := Char.ofNat ('0'.toNat + digit).toNat

def makeInt (buf : Nat) (val : Int) : Nat → List Store
  | 0 => []
  | digits + 1 =>
      ⟨buf + digits, intDigit (val.tmod 10)⟩ ::
        makeInt buf (val.tdiv 10) digits

def currentTime (time : LogTime) : List Store :=
  makeInt 0 (time.tmYear + 1900) 4 ++ [⟨4, '-'⟩] ++
    makeInt 5 (time.tmMon + 1) 2 ++ [⟨7, '-'⟩] ++
    makeInt 8 time.tmMday 2 ++ [⟨10, ' '⟩] ++
    makeInt 11 time.tmHour 2 ++ [⟨13, ':'⟩] ++
    makeInt 14 time.tmMin 2 ++ [⟨16, ':'⟩] ++
    makeInt 17 time.tmSec 2 ++ [⟨19, '.'⟩] ++
    makeInt 20 (time.tvUsec.tdiv 1000) 3 ++ [⟨23, nul⟩]

def timeBufSize : Nat := 24

def intDigits (val : Int) : Nat → List Char
  | 0 => []
  | digits + 1 => intDigits (val.tdiv 10) digits ++ [intDigit (val.tmod 10)]

@[simp] theorem length_intDigits (val : Int) (digits : Nat) :
    (intDigits val digits).length = digits := by
  induction digits generalizing val with
  | zero => rfl
  | succ digits induction => simp [intDigits, induction]

theorem stored_makeInt (memory : Memory) (buf : Nat) (val : Int)
    (digits : Nat) :
    stored memory (makeInt buf val digits) =
      stored memory (storeText buf (intDigits val digits)) := by
  induction digits generalizing memory val with
  | zero => rfl
  | succ digits induction =>
      rw [intDigits, storeText_append, length_intDigits, stored_append]
      change stored (Function.update memory (buf + digits) _) _ =
        Function.update _ (buf + digits) _
      rw [induction, stored_update_comm]
      intro store member
      have bounds := index_of_mem_storeText member
      rw [length_intDigits] at bounds
      omega

def timeText (time : LogTime) : List Char :=
  intDigits (time.tmYear + 1900) 4 ++ ['-'] ++
    intDigits (time.tmMon + 1) 2 ++ ['-'] ++
    intDigits time.tmMday 2 ++ [' '] ++
    intDigits time.tmHour 2 ++ [':'] ++
    intDigits time.tmMin 2 ++ [':'] ++
    intDigits time.tmSec 2 ++ ['.'] ++
    intDigits (time.tvUsec.tdiv 1000) 3

theorem stored_currentTime (memory : Memory) (time : LogTime) :
    stored memory (currentTime time) =
      stored memory (storeText 0 (timeText time ++ [nul])) := by
  simp only [currentTime, timeText, storeText_append, stored_append,
    stored_makeInt, List.length_append, length_intDigits, List.length_singleton]
  rfl

@[simp] theorem length_timeText (time : LogTime) :
    (timeText time).length = 23 := by
  simp [timeText]

theorem toNat_intDigit {digit : Int} (lower : -10 < digit)
    (upper : digit < 10) :
    ((intDigit digit).toNat : Int) = 48 + digit := by
  have valid : (48 + digit).toNat.isValidChar := by
    left
    omega
  have value : ('0'.toNat : Int) = 48 := rfl
  rw [intDigit, value, Char.ofNat, dif_pos valid]
  change (((48 + digit).toNat : Nat) : Int) = 48 + digit
  omega

theorem nul_notMem_intDigits (val : Int) (digits : Nat) :
    nul ∉ intDigits val digits := by
  induction digits generalizing val with
  | zero => exact List.not_mem_nil
  | succ digits induction =>
      have lower := Int.lt_tmod_of_pos val (show (0 : Int) < 10 by decide)
      have upper := Int.tmod_lt_of_pos val (show (0 : Int) < 10 by decide)
      have code := toNat_intDigit lower upper
      rw [intDigits, List.mem_append, List.mem_singleton, not_or]
      constructor
      · exact induction _
      · intro isNul
        rw [← isNul] at code
        change (0 : Int) = _ at code
        omega

theorem nul_notMem_timeText (time : LogTime) : nul ∉ timeText time := by
  simp only [timeText, List.mem_append, nul_notMem_intDigits, false_or,
    List.mem_singleton, not_or, or_false]
  decide

theorem string_currentTime (timeBuf : Memory) (time : LogTime) :
    string (stored timeBuf (currentTime time)) timeBufSize = timeText time := by
  have written := contents_storeText timeBuf 0 (timeText time ++ [nul])
  have within : (timeText time).length < timeBufSize := by
    rw [length_timeText]
    decide
  rw [Nat.zero_add, List.length_append, List.length_singleton, contents_zero,
    List.nil_append, ← stored_currentTime] at written
  exact string_of_contents written (nul_notMem_timeText time) within

/-! ## Records -/

structure CString where
  chars : List Char
  noNul : nul ∉ chars

def formatInt (value : Int) : List Char :=
  if value < 0 then '-' :: decimal value.natAbs else decimal value.natAbs

def filePiece (file : CString) (line : BitVec 32) : List Char :=
  ['['] ++ file.chars ++ [':'] ++ formatInt line.toInt ++ [']', ' ']

/-- The arguments of `Log::log`, with the message that `fmt` and `args` make.
The formatting functions return their lengths as `int`. -/
structure LogCall where
  level : LogLevel
  line : BitVec 32
  file : CString
  message : CString
  countable : (filePiece file line).length < 2 ^ 31 ∧
    message.chars.length < 2 ^ 31

/-- What has been formatted so far: the running offset, the stores, and the
offset that each step started from. -/
structure LogBuf where
  offset : BitVec 64
  stores : List Store
  starts : List (BitVec 64)

namespace LogBuf

def sizeofLogBuf : BitVec 64 := 4096

def empty : LogBuf := ⟨0, [], []⟩

def format (buf : LogBuf) (text : List Char) : LogBuf :=
  let (stores, length) :=
    snprintf buf.offset.toNat (sizeofLogBuf - buf.offset) text
  { offset := buf.offset + length.signExtend 64
    stores := buf.stores ++ stores
    starts := buf.starts ++ [buf.offset] }

/-- What `fprintf` shows of `log_buf`, which holds anything at first. -/
def printed (logBuf : Memory) (buf : LogBuf) : List Char :=
  string (stored logBuf buf.stores) sizeofLogBuf.toNat

end LogBuf

/-- `Log::log`. Nothing is formatted above `log_level`. -/
def log (logLevel : Int) (call : LogCall) (timeBuf : Memory) (time : LogTime) :
    Option LogBuf :=
  if logLevel < call.level.value then none
  else
    let shown := string (stored timeBuf (currentTime time)) timeBufSize
    some (LogBuf.empty
      |>.format (call.level.str ++ [' '])
      |>.format (filePiece call.file call.line)
      |>.format (shown ++ [' ', '|', ' '])
      |>.format call.message.chars
      |>.format ['\n'])

end PacketFilter.Software
