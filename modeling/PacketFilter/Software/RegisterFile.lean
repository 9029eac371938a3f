import PacketFilter.Foundation.FailingState
import PacketFilter.Foundation.WordStore
import PacketFilter.Software.Mmio

/-! # A register file

`MMIO::write` and `MMIO::read` at every integral type, of a device that keeps
what is written to its registers.
-/

namespace PacketFilter.Software

/-- Registers of 32 bits, four bytes apart. -/
abbrev RegisterFile := BitVec 30 → BitVec 32

/-- A type for which `std::is_integral` holds. What is not 0 converts to the
value 1 of `bool`, all other types take the lowest bits. -/
inductive IntegralType where
  | bool
  | integer (type : Integral)

namespace IntegralType

def Value : IntegralType → Type
  | bool => Bool
  | integer type => BitVec type.bits

/-- `sizeof(T) > sizeof(uint32_t)` -/
def Wide : IntegralType → Prop
  | bool => False
  | integer type => 32 < type.bits

instance : (type : IntegralType) → Decidable type.Wide
  | bool => inferInstanceAs (Decidable False)
  | integer type => inferInstanceAs (Decidable (32 < type.bits))

end IntegralType

/-- `value >> 32`, which fills a signed type with its sign. -/
def Integral.shiftRight32 (type : Integral) (value : BitVec type.bits) :
    BitVec type.bits :=
  if type.signed then value.sshiftRight 32 else value >>> 32

namespace RegisterFile

open FailingState

abbrev Access := ExceptT (List Char) (StateM RegisterFile)

def register (address : BitVec 32) : BitVec 30 := address.extractLsb' 2 30

def writeReg (address value : BitVec 32) : StateM RegisterFile Unit :=
  modify fun file => Function.update file (register address) value

def readReg (address : BitVec 32) : StateM RegisterFile (BitVec 32) := do
  return (← get) (register address)

section Access

variable (base : BitVec 32)

def mmioRegWrite (offset value : BitVec 32) : Access Unit := do
  if base = 0 then throw "Base address is not set".toList
  ExceptT.lift (writeReg (base + offset) value)

def writeBool (offset : BitVec 32) (value : Bool) : Access Unit :=
  mmioRegWrite base offset (if value then 1 else 0)

def writeInteger (type : Integral) (offset : BitVec 32)
    (value : BitVec type.bits) : Access Unit :=
  if type.bits ≤ 32 then mmioRegWrite base offset (type.toUint32 value)
  else do
    mmioRegWrite base offset (type.toUint32 (value &&& 0xFFFFFFFF))
    mmioRegWrite base (offset + 4)
      (type.toUint32 (type.shiftRight32 value &&& 0xFFFFFFFF))

def write : (type : IntegralType) → BitVec 32 → type.Value → Access Unit
  | .bool => writeBool base
  | .integer type => writeInteger base type

def readBool (offset : BitVec 32) : Access Bool := do
  return (← mmioRegRead readReg base offset) != 0

def read : (type : IntegralType) → BitVec 32 → Access type.Value
  | .bool => readBool base
  | .integer type => Software.read readReg base type

end Access

/-! ## Single accesses -/

variable {base : BitVec 32}

theorem execute_mmioRegWrite (isSet : base ≠ 0) (offset value : BitVec 32)
    (file : RegisterFile) :
    execute (mmioRegWrite base offset value) file =
      (.ok (), Function.update file (register (base + offset)) value) := by
  rw [mmioRegWrite, if_neg isSet]
  rfl

theorem execute_mmioRegRead (isSet : base ≠ 0) (offset : BitVec 32)
    (file : RegisterFile) :
    execute (mmioRegRead readReg base offset) file =
      (.ok (file (register (base + offset))), file) := by
  rw [mmioRegRead_of_set isSet]
  rfl

end RegisterFile

end PacketFilter.Software
