import PacketFilter.Software.Logging
import PacketFilter.Software.PacketHandler
import PacketFilter.Software.UpdateRule

/-! # Log records

A record is at most as long as its pieces, but the running offset goes on
counting what no longer fits.
-/

namespace PacketFilter.Contracts

open CText CBuffer Software

/-! ## Formatting -/

namespace LogBuf

open Software.LogBuf

def capacity : Nat := 4096

theorem toNat_returned {text : List Char} (countable : text.length < 2 ^ 31) :
    ((BitVec.ofNat 32 text.length).signExtend 64).toNat = text.length := by
  have value : (BitVec.ofNat 32 text.length).toNat = text.length := by
    rw [BitVec.toNat_ofNat]
    omega
  have positive : (BitVec.ofNat 32 text.length).msb = false := by
    rw [BitVec.msb_eq_false_iff_two_mul_lt, value]
    omega
  rw [BitVec.signExtend_eq_setWidth_of_msb_false positive, BitVec.toNat_setWidth,
    value]
  omega

theorem toNat_offset_format {buf : LogBuf} {text : List Char}
    (counts : buf.offset.toNat = text.length) (small : text.length < 2 ^ 63)
    (more : List Char) (countable : more.length < 2 ^ 31) :
    (buf.format more).offset.toNat = (text ++ more).length := by
  have inRange : text.length + more.length < 2 ^ 64 := by omega
  change (buf.offset + _).toNat = _
  rw [BitVec.toNat_add, toNat_returned countable, counts,
    Nat.mod_eq_of_lt inRange, List.length_append]

theorem starts_format (buf : LogBuf) (text : List Char) :
    (buf.format text).starts = buf.starts ++ [buf.offset] := rfl

theorem stores_format (buf : LogBuf) (text : List Char)
    (within : buf.offset.toNat ≤ capacity) :
    (buf.format text).stores =
      buf.stores ++ appended capacity buf.offset.toNat text := by
  have size : (sizeofLogBuf - buf.offset).toNat =
      capacity - buf.offset.toNat := by
    have total : sizeofLogBuf.toNat = capacity := rfl
    rw [BitVec.toNat_sub_of_le (BitVec.le_def.mpr within), total]
  have full : sizeofLogBuf - buf.offset = 0 ↔ buf.offset.toNat = capacity := by
    rw [← BitVec.toNat_inj, size]
    change capacity - buf.offset.toNat = 0 ↔ _
    omega
  change _ ++ (if sizeofLogBuf - buf.offset = 0 then [] else _) = _
  simp only [appended, size, full]

/-- The buffer has been given `text` and no store was outside. -/
structure Represents (buf : LogBuf) (text : List Char) : Prop where
  offset : buf.offset.toNat = text.length
  starts : ∀ start ∈ buf.starts, start ≤ sizeofLogBuf
  inside : ∀ store ∈ buf.stores, store.index < capacity
  keeps : ∀ memory, Keeps capacity (stored memory buf.stores) text

theorem represents_empty : Represents .empty [] where
  offset := rfl
  starts _ member := by cases member
  inside _ member := by cases member
  keeps _ := Keeps.empty capacity _

theorem Represents.format {buf : LogBuf} {text : List Char}
    (represents : Represents buf text) (within : text.length ≤ capacity)
    (more : List Char) (countable : more.length < 2 ^ 31) :
    Represents (buf.format more) (text ++ more) := by
  have offset := represents.offset
  have start : buf.offset ≤ sizeofLogBuf := by
    rw [BitVec.le_def, offset]
    exact within
  have isStores : (buf.format more).stores =
      buf.stores ++ appended capacity text.length more := by
    rw [← offset]
    exact stores_format buf more (by omega)
  constructor
  · have small : capacity < 2 ^ 63 := by decide
    exact toNat_offset_format offset (by omega) more countable
  · rw [starts_format]
    intro other member
    rcases List.mem_append.mp member with earlier | last
    · exact represents.starts other earlier
    · rw [List.mem_singleton.mp last]
      exact start
  · rw [isStores]
    intro store member
    rcases List.mem_append.mp member with earlier | last
    · exact represents.inside store earlier
    · exact index_lt_of_mem_appended within last
  · intro memory
    rw [isStores, stored_append]
    exact (represents.keeps memory).append (by decide) within more

end LogBuf

/-! ## Records -/

def record (call : LogCall) (time : LogTime) : List Char :=
  call.level.str ++ [' '] ++ filePiece call.file call.line ++
    (timeText time ++ [' ', '|', ' ']) ++ call.message.chars

theorem nul_notMem_formatInt (value : Int) : nul ∉ formatInt value := by
  have digits : nul ∉ decimal value.natAbs := notMem_decimal rfl _
  rw [formatInt]
  split
  · rw [List.mem_cons, not_or]
    exact ⟨by decide, digits⟩
  · exact digits

theorem nul_notMem_record (call : LogCall) (time : LogTime) :
    nul ∉ record call time := by
  have level : nul ∉ call.level.str := by cases call.level <;> decide
  simp only [record, filePiece, List.mem_append, List.mem_cons, level,
    call.file.noNul, call.message.noNul, nul_notMem_timeText,
    nul_notMem_formatInt, List.not_mem_nil, false_or, or_false, not_or]
  decide

theorem length_record (call : LogCall) (time : LogTime) :
    (record call time).length = 28 + (filePiece call.file call.line).length +
      call.message.chars.length := by
  have level : call.level.str.length = 1 := by cases call.level <;> rfl
  simp [record, level]
  omega

/-- A record that is written inside the buffer and ends its line. -/
structure Orderly (logBuf : Memory) (buf : LogBuf) : Prop where
  starts : ∀ start ∈ buf.starts, start ≤ LogBuf.sizeofLogBuf
  inside : ∀ store ∈ buf.stores, store.index < LogBuf.sizeofLogBuf.toNat
  ended : (buf.printed logBuf).getLast? = some '\n'

/-- The line feed fits behind the record, or the record is cut off behind a
line feed of its own. -/
def Fits (text : List Char) : Prop :=
  text.length ≤ 4094 ∨ text.length ≤ 4096 ∧ text[4094]? = some '\n'

theorem getLast?_take_iff {text : List Char} (within : text.length ≤ 4096) :
    ((text ++ ['\n']).take 4095).getLast? = some '\n' ↔ Fits text := by
  by_cases short : text.length ≤ 4094
  · have whole : (text ++ ['\n']).take 4095 = text ++ ['\n'] := by
      apply List.take_of_length_le
      simp
      omega
    rw [whole, List.getLast?_concat]
    exact iff_of_true rfl (.inl short)
  · have cut : (text ++ ['\n']).take 4095 = text.take 4095 :=
      List.take_append_of_le_length (by omega)
    have inside : 4094 < text.length := by omega
    have present : text[4094]? = some text[4094] :=
      List.getElem?_eq_getElem inside
    rw [cut, List.getLast?_take, if_neg (by decide), Fits, present]
    simp only [short, within, false_or, true_and]
    rfl

section Run

variable (call : LogCall) (time : LogTime)

def formatted : LogBuf :=
  LogBuf.empty
    |>.format (call.level.str ++ [' '])
    |>.format (filePiece call.file call.line)
    |>.format (timeText time ++ [' ', '|', ' '])
    |>.format call.message.chars

theorem log_eq {logLevel : Int} (timeBuf : Memory)
    (shown : ¬ logLevel < call.level.value) :
    log logLevel call timeBuf time =
      some ((formatted call time).format ['\n']) := by
  rw [log, if_neg shown]
  simp only [string_currentTime]
  rfl

theorem length_levelPiece : (call.level.str ++ [' ']).length = 2 := by
  cases call.level <;> rfl

theorem length_timePiece :
    (timeText time ++ [' ', '|', ' ']).length = 26 := by simp

theorem toNat_offset_formatted :
    (formatted call time).offset.toNat = (record call time).length := by
  have bounds := call.countable
  have level := length_levelPiece call
  have timed := length_timePiece time
  have first : (LogBuf.empty.format (call.level.str ++ [' '])).offset.toNat =
      (call.level.str ++ [' ']).length :=
    LogBuf.toNat_offset_format (show _ = ([] : List Char).length from rfl)
      (by decide) _ (by omega)
  have second := LogBuf.toNat_offset_format first (by omega)
    (filePiece call.file call.line) bounds.1
  have third := LogBuf.toNat_offset_format second
    (by rw [List.length_append]; omega)
    (timeText time ++ [' ', '|', ' ']) (by omega)
  exact LogBuf.toNat_offset_format third
    (by rw [List.length_append, List.length_append]; omega) _ bounds.2

theorem represents_formatted (within : (record call time).length ≤ 4096) :
    LogBuf.Represents (formatted call time) (record call time) := by
  have bounds := call.countable
  have level := length_levelPiece call
  have timed := length_timePiece time
  rw [record, List.length_append, List.length_append, List.length_append]
    at within
  have capacity : LogBuf.capacity = 4096 := rfl
  have first : LogBuf.Represents (LogBuf.empty.format (call.level.str ++ [' ']))
      (call.level.str ++ [' ']) :=
    LogBuf.represents_empty.format (by decide) _ (by omega)
  have second := first.format (by omega) (filePiece call.file call.line)
    bounds.1
  have third := second.format (by rw [List.length_append]; omega)
    (timeText time ++ [' ', '|', ' ']) (by omega)
  exact third.format
    (by rw [List.length_append, List.length_append]; omega) _ bounds.2

theorem orderly_iff_of_length_le (logBuf : Memory)
    (within : (record call time).length ≤ 4096) :
    Orderly logBuf ((formatted call time).format ['\n']) ↔
      Fits (record call time) := by
  have represents := (represents_formatted call time within).format within
    ['\n'] (by decide)
  have noNul : nul ∉ record call time ++ ['\n'] := by
    rw [List.mem_append, not_or]
    exact ⟨nul_notMem_record call time, by decide⟩
  have printed : ((formatted call time).format ['\n']).printed logBuf =
      (record call time ++ ['\n']).take 4095 :=
    (represents.keeps logBuf).string (by decide) (by simp) noNul
  rw [← getLast?_take_iff within, ← printed]
  constructor
  · intro orderly
    exact orderly.ended
  · intro ended
    exact ⟨represents.starts, represents.inside, ended⟩

theorem length_le_of_orderly {logBuf : Memory}
    (orderly : Orderly logBuf ((formatted call time).format ['\n'])) :
    (record call time).length ≤ 4096 := by
  have last := orderly.starts (formatted call time).offset
    (by rw [LogBuf.starts_format]; exact List.mem_concat_self)
  rw [BitVec.le_def, toNat_offset_formatted] at last
  exact last

theorem Fits.length_le {text : List Char} (fits : Fits text) :
    text.length ≤ 4096 := by
  rcases fits with short | cut
  · omega
  · exact cut.1

theorem orderly_iff (logBuf : Memory) :
    Orderly logBuf ((formatted call time).format ['\n']) ↔
      Fits (record call time) := by
  constructor
  · intro orderly
    have within := length_le_of_orderly call time orderly
    exact (orderly_iff_of_length_le call time logBuf within).mp orderly
  · intro fits
    exact (orderly_iff_of_length_le call time logBuf fits.length_le).mpr fits

end Run

/-- The record is orderly exactly when it is not shown at all, when its line
feed fits into the buffer, or when it is cut off behind a line feed. -/
theorem record_orderly_iff (logLevel : Int) (call : LogCall) (time : LogTime)
    (timeBuf logBuf : Memory) :
    (∀ buf ∈ log logLevel call timeBuf time, Orderly logBuf buf) ↔
      logLevel < call.level.value ∨ Fits (record call time) := by
  by_cases suppressed : logLevel < call.level.value
  · rw [log, if_pos suppressed]
    exact iff_of_true (fun buf member => by cases member) (.inl suppressed)
  · rw [log_eq call time timeBuf suppressed, ← orderly_iff call time logBuf]
    simp [suppressed]

/-! ## Records that are too long -/

theorem nul_notMem_updateMessage (netAddr : List Char) (action : RuleAction) :
    nul ∉ updateMessage netAddr action := by
  have opening : nul ∉ "Updating rule: ".toList := by decide
  have arrow : nul ∉ " -> ".toList := by decide
  have shown : nul ∉ (if action = .drop then "DROP" else "FORWARD").toList := by
    cases action <;> decide
  unfold updateMessage
  simp only [List.mem_append, opening, arrow, nul_notMem_cStr, shown, or_false,
    not_false_eq_true]

theorem length_updateMessage (netAddr : List Char) :
    (updateMessage netAddr .forward).length = 26 + (cStr netAddr).length := by
  have opening : "Updating rule: ".length = 15 := by decide
  have arrow : " -> ".length = 4 := by decide
  have shown : (if RuleAction.forward = .drop then "DROP"
      else "FORWARD").length = 7 := by decide
  unfold updateMessage
  simp only [List.length_append, String.length_toList, opening, arrow, shown]
  omega

/-- A filter of 4096 characters, as the driver logs it. -/
def longFilter : List Char := List.replicate 4096 '1'

theorem cStr_longFilter : cStr longFilter = longFilter := by
  apply List.takeWhile_eq_self_iff.mpr
  intro char member
  rw [List.eq_of_mem_replicate member]
  rfl

theorem length_longMessage :
    (updateMessage longFilter .forward).length = 4122 := by
  rw [length_updateMessage, cStr_longFilter]
  simp only [longFilter, List.length_replicate]

def longFilterCall : LogCall where
  level := .info
  line := 25
  file := ⟨"src/packet_filter.cc".toList, by decide⟩
  message := ⟨updateMessage longFilter .forward,
    nul_notMem_updateMessage longFilter .forward⟩
  countable := ⟨by decide, by rw [length_longMessage]; decide⟩

theorem length_longFilterCall (time : LogTime) :
    4096 < (record longFilterCall time).length := by
  have message : longFilterCall.message.chars.length = 4122 :=
    length_longMessage
  rw [length_record, message]
  omega

theorem not_record_orderly :
    ¬ ∀ (logLevel : Int) (call : LogCall) (time : LogTime)
      (timeBuf logBuf : Memory),
      ∀ buf ∈ log logLevel call timeBuf time, Orderly logBuf buf := by
  intro orderly
  have time : LogTime := ⟨125, 0, 1, 0, 0, 0, 0⟩
  have logged := orderly 4 longFilterCall time (fun _ => ' ') (fun _ => ' ')
  rw [log_eq longFilterCall time _ (by decide)] at logged
  have within := length_le_of_orderly longFilterCall time (logged _ rfl)
  exact absurd (length_longFilterCall time) (not_lt.mpr within)

end PacketFilter.Contracts
