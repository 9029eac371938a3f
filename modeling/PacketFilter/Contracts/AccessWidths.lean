import PacketFilter.Contracts.CounterReads
import PacketFilter.Platform.SharedRegisters
import PacketFilter.Software.RegisterFile

/-! # Access widths

A value of an integral type is laid out in one register or in two, and
`MMIO::write` and `MMIO::read` are the operations of that layout.
-/

namespace PacketFilter.Contracts

open FailingState Software RegisterFile WordStore

structure WordOffset where
  offset : BitVec 32
  aligned : offset.toNat % 4 = 0
  deriving DecidableEq

namespace WordOffset

/-- The offset of the upper word of a value that has two. -/
def next (word : WordOffset) : WordOffset where
  offset := word.offset + 4
  aligned := by
    have aligned := word.aligned
    have four : (4 : BitVec 32).toNat = 4 := rfl
    rw [BitVec.toNat_add, four]
    omega

theorem next_ne (word : WordOffset) : word.next ≠ word := by
  intro same
  have equal : word.offset + 4 = word.offset := congrArg offset same
  simp at equal

/-- Aligned offsets from one base address are different registers. -/
theorem register_inj (base : BitVec 32) {word word' : WordOffset} :
    register (base + word.offset) = register (base + word'.offset) ↔
      word = word' := by
  constructor
  · intro same
    have equal := congrArg BitVec.toNat same
    have aligned := word.aligned
    have aligned' := word'.aligned
    have bound := word.offset.isLt
    have bound' := word'.offset.isLt
    simp only [register, BitVec.extractLsb'_toNat, BitVec.toNat_add,
      Nat.shiftRight_eq_div_pow] at equal
    have offsets : word.offset = word'.offset := by
      apply BitVec.eq_of_toNat_eq
      omega
    cases word
    cases word'
    cases offsets
    rfl
  · rintro rfl
    rfl

theorem register_injective (base : BitVec 32) :
    Function.Injective
      fun word : WordOffset => register (base + word.offset) := by
  intro word word' same
  have equal : register (base + word.offset) =
      register (base + word'.offset) := same
  exact (register_inj base).mp equal

end WordOffset

/-! ## Layouts -/

def footprint (type : IntegralType) (word : WordOffset) : List WordOffset :=
  if type.Wide then [word, word.next] else [word]

theorem footprint_nodup (type : IntegralType) (word : WordOffset) :
    (footprint type word).Nodup := by
  rw [footprint]
  split
  · simp [Ne.symm word.next_ne]
  · simp

section Words

variable (type : Integral) (value : BitVec type.bits)

theorem setWidth_toUint32 (narrow : type.bits ≤ 32) :
    (type.toUint32 value).setWidth type.bits = value := by
  rw [Integral.toUint32]
  split
  · apply BitVec.eq_of_getLsbD_eq
    intro index bound
    have inside : index < 32 := by omega
    rw [BitVec.getLsbD_setWidth, BitVec.getLsbD_signExtend]
    simp [bound, inside]
  · simp [narrow]

theorem getLsbD_toUint32_mask (wide : 32 < type.bits) {index : Nat}
    (inside : index < 32) :
    (type.toUint32 (value &&& 0xFFFFFFFF)).getLsbD index =
      value.getLsbD index := by
  have truncates : ∀ wider : BitVec type.bits,
      type.toUint32 wider = wider.setWidth 32 := by
    intro wider
    rw [Integral.toUint32, BitVec.signExtend_eq_setWidth_of_le _ wide.le,
      ite_self]
  have mask : (0xFFFFFFFF : BitVec type.bits).getLsbD index = true := by
    have ones : (0xFFFFFFFF : Nat) = 2 ^ 32 - 1 := by decide
    change (BitVec.ofNat type.bits 0xFFFFFFFF).getLsbD index = true
    rw [BitVec.getLsbD_ofNat, ones, Nat.testBit_two_pow_sub_one]
    simp [inside, inside.trans wide]
  rw [truncates, BitVec.getLsbD_setWidth, BitVec.getLsbD_and, mask]
  simp [inside]

/-- The sign that an arithmetic shift fills in is not in the way. -/
theorem getLsbD_shiftRight32 {index : Nat} (inside : 32 + index < type.bits) :
    (type.shiftRight32 value).getLsbD index = value.getLsbD (32 + index) := by
  have below : index < type.bits := by omega
  rw [Integral.shiftRight32]
  split
  · rw [BitVec.getLsbD_sshiftRight]
    simp [inside, Nat.not_le.mpr below]
  · exact BitVec.getLsbD_ushiftRight _ _ _

theorem join_words (wide : 32 < type.bits) :
    (((type.toUint32 (type.shiftRight32 value &&& 0xFFFFFFFF)).setWidth 64 <<<
          32) |||
        (type.toUint32 (value &&& 0xFFFFFFFF)).setWidth 64).setWidth
      type.bits = value := by
  have supported := type.supported
  apply BitVec.eq_of_getLsbD_eq
  intro index bound
  rw [BitVec.getLsbD_setWidth, BitVec.getLsbD_or, BitVec.getLsbD_shiftLeft,
    BitVec.getLsbD_setWidth, BitVec.getLsbD_setWidth]
  by_cases lower : index < 32
  · rw [getLsbD_toUint32_mask type value wide lower]
    have within : index < 64 := by omega
    simp [bound, lower, within]
  · have within : index < 64 := by omega
    have upper : index - 32 < 32 := by omega
    have position : 32 + (index - 32) = index := by omega
    have inside : 32 + (index - 32) < type.bits := by omega
    have beyond : (type.toUint32 (value &&& 0xFFFFFFFF)).getLsbD index =
        false := BitVec.getLsbD_of_ge _ _ (by omega)
    rw [getLsbD_toUint32_mask type _ wide upper,
      getLsbD_shiftRight32 type value inside, position, beyond]
    have small : index - 32 < 64 := by omega
    simp [bound, lower, within, small]

def integerWords : List (BitVec 32) :=
  if type.bits ≤ 32 then [type.toUint32 value]
  else
    [type.toUint32 (value &&& 0xFFFFFFFF),
      type.toUint32 (type.shiftRight32 value &&& 0xFFFFFFFF)]

end Words

def ofIntegerWords (type : Integral) (words : List (BitVec 32)) :
    BitVec type.bits :=
  if type.bits ≤ 32 then (words.getD 0 0).setWidth type.bits
  else
    (((words.getD 1 0).setWidth 64 <<< 32) |||
      (words.getD 0 0).setWidth 64).setWidth type.bits

theorem ofIntegerWords_integerWords (type : Integral)
    (value : BitVec type.bits) :
    ofIntegerWords type (integerWords type value) = value := by
  by_cases narrow : type.bits ≤ 32
  · rw [ofIntegerWords, integerWords, if_pos narrow, if_pos narrow]
    exact setWidth_toUint32 type value narrow
  · rw [ofIntegerWords, integerWords, if_neg narrow, if_neg narrow]
    exact join_words type value (Nat.not_le.mp narrow)

def boolWords (value : Bool) : List (BitVec 32) := [if value then 1 else 0]

def ofBoolWords (words : List (BitVec 32)) : Bool := words.getD 0 0 != 0

def encode : (type : IntegralType) → type.Value → List (BitVec 32)
  | .bool => boolWords
  | .integer type => integerWords type

def decode : (type : IntegralType) → List (BitVec 32) → type.Value
  | .bool => ofBoolWords
  | .integer type => ofIntegerWords type

theorem length_encode (type : IntegralType) (value : type.Value)
    (word : WordOffset) :
    (encode type value).length = (footprint type word).length := by
  cases type with
  | bool => rfl
  | integer type =>
      by_cases wide : 32 < type.bits
      · simp [encode, integerWords, footprint, IntegralType.Wide, wide,
          Nat.not_le.mpr wide]
      · simp [encode, integerWords, footprint, IntegralType.Wide, wide,
          Nat.not_lt.mp wide]

theorem decode_encode (type : IntegralType) (value : type.Value) :
    decode type (encode type value) = value := by
  cases type with
  | bool =>
      have joined : ∀ value, ofBoolWords (boolWords value) = value := by decide
      exact joined value
  | integer type => exact ofIntegerWords_integerWords type value

def layout (base : BitVec 32) (type : IntegralType) (word : WordOffset) :
    Layout (BitVec 30) (BitVec 32) type.Value where
  cells := (footprint type word).map
    fun cell : WordOffset => register (base + cell.offset)
  distinct := (footprint_nodup type word).map
    (WordOffset.register_injective base)
  encode := encode type
  fits value := by rw [List.length_map, length_encode type value word]
  decode := decode type
  decode_encode := decode_encode type

/-! ## The accesses are the operations of the layout -/

section Accesses

variable {base : BitVec 32} (isSet : base ≠ 0) (word : WordOffset)
  (file : RegisterFile)
include isSet

theorem execute_writeInteger (type : Integral) (value : BitVec type.bits) :
    execute (writeInteger base type word.offset value) file =
      (.ok (), (layout base (.integer type) word).write file value) := by
  by_cases narrow : type.bits ≤ 32
  · have notWide := Nat.not_lt.mpr narrow
    rw [writeInteger, if_pos narrow, execute_mmioRegWrite isSet]
    simp [layout, footprint, IntegralType.Wide, encode, integerWords, narrow,
      notWide, Layout.write, assign]
  · have wide := Nat.not_le.mp narrow
    rw [writeInteger, if_neg narrow,
      execute_bind_ok (execute_mmioRegWrite isSet word.offset _ file),
      execute_mmioRegWrite isSet]
    simp [layout, footprint, IntegralType.Wide, encode, integerWords, narrow,
      wide, Layout.write, assign, WordOffset.next]

theorem execute_readInteger (type : Integral) :
    execute (Software.read readReg base type word.offset) file =
      (.ok ((layout base (.integer type) word).read file), file) := by
  by_cases narrow : type.bits ≤ 32
  · have notWide : ¬ (IntegralType.integer type).Wide := Nat.not_lt.mpr narrow
    have isRead : (layout base (.integer type) word).read file =
        (file (register (base + word.offset))).setWidth type.bits := by
      change ofIntegerWords type (((footprint (.integer type) word).map
        fun cell => register (base + cell.offset)).map file) = _
      rw [ofIntegerWords, if_pos narrow, footprint, if_neg notWide]
      rfl
    rw [Software.read, if_pos narrow,
      execute_bind_ok (execute_mmioRegRead isSet word.offset file), isRead]
    rfl
  · have wide : (IntegralType.integer type).Wide := Nat.not_le.mp narrow
    have isRead : (layout base (.integer type) word).read file =
        ((file (register (base + word.next.offset))).setWidth 64 <<< 32 |||
          (file (register (base + word.offset))).setWidth 64).setWidth
            type.bits := by
      change ofIntegerWords type (((footprint (.integer type) word).map
        fun cell => register (base + cell.offset)).map file) = _
      rw [ofIntegerWords, if_neg narrow, footprint, if_pos wide]
      rfl
    rw [read_of_wide narrow,
      execute_bind_ok (execute_mmioRegRead isSet word.offset file),
      execute_bind_ok (execute_mmioRegRead isSet (word.offset + 4) file),
      isRead]
    rfl

variable (type : IntegralType)

theorem execute_write (value : type.Value) :
    execute (write base type word.offset value) file =
      (.ok (), (layout base type word).write file value) := by
  cases type with
  | bool => exact execute_mmioRegWrite isSet word.offset _ file
  | integer type => exact execute_writeInteger isSet word file type value

theorem execute_read :
    execute (read base type word.offset) file =
      (.ok ((layout base type word).read file), file) := by
  cases type with
  | bool =>
      change execute (readBool base word.offset) file = _
      rw [readBool,
        execute_bind_ok (execute_mmioRegRead isSet word.offset file)]
      rfl
  | integer type => exact execute_readInteger isSet word file type

end Accesses

/-! ## Access laws -/

structure AccessLaws (base : BitVec 32) : Prop where
  reads_back : ∀ (type : IntegralType) (word : WordOffset) (value : type.Value)
    (file : RegisterFile), ∃ after,
      execute (write base type word.offset value) file = (.ok (), after) ∧
        execute (read base type word.offset) after = (.ok value, after)
  unchanged : ∀ (type : IntegralType) (word : WordOffset) (value : type.Value)
    (file : RegisterFile) (index : BitVec 30),
      index ∉ (footprint type word).map
        (fun cell => register (base + cell.offset)) →
      (execute (write base type word.offset value) file).2 index = file index
  commute : ∀ (type type' : IntegralType) (word word' : WordOffset)
    (value : type.Value) (value' : type'.Value) (file : RegisterFile),
      (footprint type word).Disjoint (footprint type' word') →
      execute (do
          write base type word.offset value
          write base type' word'.offset value') file =
        execute (do
          write base type' word'.offset value'
          write base type word.offset value) file

theorem access_laws (registers : Registers) : AccessLaws registers.base where
  reads_back type word value file := by
    have reads := execute_read registers.isSet word
      ((layout registers.base type word).write file value) type
    rw [Layout.read_write] at reads
    exact ⟨_, execute_write registers.isSet word file type value, reads⟩
  unchanged type word value file index outside := by
    rw [execute_write registers.isSet word file type value]
    exact (layout registers.base type word).write_of_notMem file value outside
  commute type type' word word' value value' file apart := by
    have inRegisters : (layout registers.base type word).cells.Disjoint
        (layout registers.base type' word').cells :=
      apart.map (WordOffset.register_injective registers.base)
    rw [execute_bind_ok (execute_write registers.isSet word file type value),
      execute_bind_ok (execute_write registers.isSet word' file type' value'),
      execute_write registers.isSet, execute_write registers.isSet,
      Layout.write_comm _ _ _ inRegisters]

/-! ## The registers of the core -/

def written (file : RegisterFile) (writes : List RegisterWrite) :
    RegisterFile :=
  writes.foldl
    (fun file write => Function.update file (register write.address) write.value)
    file

/-- The integral types of C++ have up to 32 bits or 64. -/
theorem execute_writeInteger_written (type : Integral)
    (standard : type.bits ≤ 32 ∨ type.bits = 64) (offset : BitVec 32)
    (value : BitVec type.bits) (file : RegisterFile) :
    execute (writeInteger baseAddr type offset value) file =
      (.ok (), written file (Software.write type offset value)) := by
  by_cases narrow : type.bits ≤ 32
  · rw [writeInteger, if_pos narrow, execute_mmioRegWrite baseAddr_ne_zero,
      Software.write, if_pos narrow]
    rfl
  · have wide := Nat.not_le.mp narrow
    have lower : type.toUint32 (value &&& 0xFFFFFFFF) = value.setWidth 32 := by
      apply BitVec.eq_of_getLsbD_eq
      intro index below
      rw [getLsbD_toUint32_mask type value wide below]
      simp [below]
    have upper : type.toUint32 (type.shiftRight32 value &&& 0xFFFFFFFF) =
        (value >>> 32).setWidth 32 := by
      apply BitVec.eq_of_getLsbD_eq
      intro index below
      rw [getLsbD_toUint32_mask type _ wide below,
        getLsbD_shiftRight32 type value (by omega)]
      simp [below]
    rw [writeInteger, if_neg narrow,
      execute_bind_ok (execute_mmioRegWrite baseAddr_ne_zero offset _ file),
      execute_mmioRegWrite baseAddr_ne_zero, Software.write, if_neg narrow,
      lower, upper]
    rfl

def core (file : RegisterFile) : Hardware.Config where
  ipv4Addr := file (register (baseAddr + ipv4AddrReg))
  udpPort := (file (register (baseAddr + udpPortReg))).setWidth 16
  action := (file (register (baseAddr + ruleActionReg))).setWidth 8

theorem update_register (file : RegisterFile) (write : RegisterWrite)
    (aligned : write.address.toNat % 4 = 0) {address : BitVec 32}
    (aligned' : address.toNat % 4 = 0) :
    written file [write] (register address) =
      if write.address = address then write.value
      else file (register address) := by
  have same : register address = register write.address ↔
      address = write.address := by
    have based := @WordOffset.register_inj 0 ⟨address, aligned'⟩
      ⟨write.address, aligned⟩
    simpa using based
  change Function.update file (register write.address) write.value _ = _
  rw [Function.update_apply]
  exact if_congr (same.trans eq_comm) rfl rfl

theorem core_update (file : RegisterFile) (write : RegisterWrite)
    (aligned : write.address.toNat % 4 = 0) :
    core (written file [write]) = (core file).writeRegister write := by
  have distinct := Platform.registers_distinct
  rw [core, update_register file write aligned (by decide),
    update_register file write aligned (by decide),
    update_register file write aligned (by decide),
    Hardware.Config.writeRegister]
  by_cases isIp : write.address = baseAddr + ipv4AddrReg
  · have notPort : write.address ≠ baseAddr + udpPortReg := by
      rw [isIp]
      exact distinct.1.symm
    have notAction : write.address ≠ baseAddr + ruleActionReg := by
      rw [isIp]
      exact distinct.2.1.symm
    rw [if_pos isIp, if_neg notPort, if_neg notAction, if_pos isIp]
    rfl
  · by_cases isPort : write.address = baseAddr + udpPortReg
    · have notAction : write.address ≠ baseAddr + ruleActionReg := by
        rw [isPort]
        exact distinct.2.2.symm
      rw [if_neg isIp, if_pos isPort, if_neg notAction, if_neg isIp,
        if_pos isPort]
      rfl
    · rw [if_neg isIp, if_neg isPort, if_neg isIp, if_neg isPort]
      by_cases isAction : write.address = baseAddr + ruleActionReg
      · rw [if_pos isAction, if_pos isAction]
        rfl
      · rw [if_neg isAction, if_neg isAction]
        rfl

/-- Writes that start at registers do to the core what they do to the registers
of the platform. -/
theorem core_written (file : RegisterFile) (writes : List RegisterWrite)
    (aligned : ∀ write ∈ writes, write.address.toNat % 4 = 0) :
    core (written file writes) =
      writes.foldl Hardware.Config.writeRegister (core file) := by
  induction writes generalizing file with
  | nil => rfl
  | cons write rest induction =>
      have others : ∀ later ∈ rest, later.address.toNat % 4 = 0 :=
        fun later member => aligned later (List.mem_cons_of_mem write member)
      rw [List.foldl_cons,
        ← core_update file write (aligned write List.mem_cons_self),
        ← induction _ others]
      rfl

end PacketFilter.Contracts
