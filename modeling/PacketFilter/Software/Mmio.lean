import Mathlib.Data.BitVec

/-! # Register access

The software reaches the packet filter core and the packet adapter through
32-bit registers behind a base address.
-/

namespace PacketFilter.Software

/-- An integral type that `MMIO::write` can be used at. -/
structure Integral where
  bits : Nat
  signed : Bool
  supported : bits ≤ 64

namespace Integral

def uint8 : Integral := ⟨8, false, by decide⟩
def uint16 : Integral := ⟨16, false, by decide⟩
def uint32 : Integral := ⟨32, false, by decide⟩
def uint64 : Integral := ⟨64, false, by decide⟩

def toUint32 (type : Integral) (value : BitVec type.bits) : BitVec 32 :=
  if type.signed then value.signExtend 32 else value.setWidth 32

end Integral

structure RegisterWrite where
  address : BitVec 32
  value : BitVec 32
  deriving DecidableEq

def baseAddr : BitVec 32 := 0x100000 + 0x2000

def mmioRegWrite (offset value : BitVec 32) : RegisterWrite :=
  ⟨baseAddr + offset, value⟩

theorem baseAddr_ne_zero : baseAddr ≠ 0 := by decide

/-- `MMIO::write`: one register for types of up to 32 bits, two for wider
ones, the low word first. -/
def write (type : Integral) (offset : BitVec 32) (value : BitVec type.bits) :
    List RegisterWrite :=
  if type.bits ≤ 32 then [mmioRegWrite offset (type.toUint32 value)]
  else
    [mmioRegWrite offset (value.setWidth 32),
      mmioRegWrite (offset + 4) ((value >>> 32).setWidth 32)]

/-! ## Reading -/

section Reading

variable {m : Type → Type u} [Monad m] (readReg : BitVec 32 → m (BitVec 32))
  (base : BitVec 32)

/-- `mmio_reg_read`. The error is the message of the failed assertion. -/
def mmioRegRead (offset : BitVec 32) : ExceptT (List Char) m (BitVec 32) := do
  if base = 0 then throw "Base address is not set".toList
  ExceptT.lift (readReg (base + offset))

/-- `MMIO::read`. A value of more than 32 bits is read low word first. -/
def read (type : Integral) (offset : BitVec 32) :
    ExceptT (List Char) m (BitVec type.bits) := do
  if type.bits ≤ 32 then
    return (← mmioRegRead readReg base offset).setWidth type.bits
  let low ← mmioRegRead readReg base offset
  let high ← mmioRegRead readReg base (offset + 4)
  return ((high.setWidth 64 <<< 32) ||| low.setWidth 64).setWidth type.bits

variable {readReg base}

theorem mmioRegRead_of_set (isSet : base ≠ 0) (offset : BitVec 32) :
    mmioRegRead readReg base offset =
      ExceptT.lift (readReg (base + offset)) := by
  rw [mmioRegRead, if_neg isSet]

theorem read_of_wide {type : Integral} (wide : ¬ type.bits ≤ 32)
    (offset : BitVec 32) :
    read readReg base type offset = do
      let low ← mmioRegRead readReg base offset
      let high ← mmioRegRead readReg base (offset + 4)
      return ((high.setWidth 64 <<< 32) ||| low.setWidth 64).setWidth
        type.bits := by
  rw [read, if_neg wide]

end Reading

/-! ## Configuration registers -/

/-- 32 bits -/
def ipv4AddrReg : BitVec 32 := 0x10

/-- 16 bits -/
def udpPortReg : BitVec 32 := 0x18

/-- 8 bits -/
def ruleActionReg : BitVec 32 := 0x20

end PacketFilter.Software
