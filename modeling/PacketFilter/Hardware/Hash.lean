import PacketFilter.Foundation.DirectMapped
import Mathlib.Data.BitVec

/-! # The Toeplitz hash table

The table stores one action per slot. A key selects its slot through the low
bits of its Toeplitz hash and is not stored itself.
-/

namespace PacketFilter.Hardware

/-- `HASH_BITS` for a given `HASH_TABLE_SIZE`. The table size is an `int`. -/
def hashBits (hashTableSize : BitVec 32) : Nat :=
  4 * 8 - 1 - hashTableSize.clz.toNat

/-- `HASH_MASK`, computed in 64 bits and stored in 32. -/
def hashMask (hashTableSize : BitVec 32) : BitVec 32 :=
  ((1#64 <<< hashBits hashTableSize) - 1).setWidth 32

abbrev hashTableSize : Nat := 32

def toeplitzKey : BitVec 320 :=
  0x7C9C37DE#32 ++ 0x18DC4386#32 ++ 0xD9270F6F#32 ++ 0x260374B8#32 ++
    0xBFD0404B#32 ++ 0x7872E224#32 ++ 0xDC1B91BB#32 ++ 0x011BA7A6#32 ++
    0x376CC87E#32 ++ 0xD6E31417#32

def getWindow (bit : Bool) (offset : Nat) : BitVec 32 :=
  if bit then toeplitzKey.extractLsb' offset 32 else 0

def computeHash (ip : BitVec 32) (port : BitVec 16) : BitVec 32 :=
  let hash := (List.range 32).foldl
    (fun hash i => hash ^^^ getWindow (ip.getLsbD i) i) 0
  (List.range 16).foldl
    (fun hash i => hash ^^^ getWindow (port.getLsbD i) (i + 32)) hash

theorem hashMask_hashTableSize : hashMask 32 = 31 := by decide

theorem hash_and_hashMask_lt (hash : BitVec 32) :
    (hash &&& hashMask 32).toNat < hashTableSize := by
  rw [hashMask_hashTableSize, BitVec.toNat_and]
  exact Nat.lt_succ_of_le Nat.and_le_right

def slotIndex (ip : BitVec 32) (port : BitVec 16) : Fin hashTableSize :=
  ⟨(computeHash ip port &&& hashMask 32).toNat, hash_and_hashMask_lt _⟩

theorem slotIndex_val (ip : BitVec 32) (port : BitVec 16) :
    (slotIndex ip port).val = (computeHash ip port).toNat % 2 ^ 5 := by
  have mask : (hashMask 32).toNat = 2 ^ 5 - 1 := by decide
  change (computeHash ip port &&& hashMask 32).toNat = _
  rw [BitVec.toNat_and, mask, Nat.and_two_pow_sub_one_eq_mod]

theorem slotIndex_eq_iff (ip ip' : BitVec 32) (port port' : BitVec 16) :
    slotIndex ip port = slotIndex ip' port' ↔
      (computeHash ip port).setWidth 5 = (computeHash ip' port').setWidth 5 := by
  rw [Fin.ext_iff, slotIndex_val, slotIndex_val, BitVec.toNat_eq,
    BitVec.toNat_setWidth, BitVec.toNat_setWidth]

structure ToeplitzHash where
  table : Fin hashTableSize → BitVec 32

namespace ToeplitzHash

def initial : ToeplitzHash where
  table := fun _ => 0

def lookup (hash : ToeplitzHash) (ip : BitVec 32) (port : BitVec 16) :
    BitVec 32 :=
  hash.table (slotIndex ip port)

def insert (hash : ToeplitzHash) (ip : BitVec 32) (port : BitVec 16)
    (value : BitVec 32) : ToeplitzHash where
  table := Function.update hash.table (slotIndex ip port) value

theorem insert_table (hash : ToeplitzHash) (ip : BitVec 32)
    (port : BitVec 16) (value : BitVec 32) (slot : Fin hashTableSize) :
    (hash.insert ip port value).table slot =
      if slotIndex ip port = slot then value else hash.table slot := by
  by_cases same : slotIndex ip port = slot
  · simp [insert, same]
  · simp [insert, same, Function.update_of_ne (Ne.symm same)]

/-- A key is answered with the value last inserted for its slot, whatever key
that value was inserted for. -/
theorem lookup_insert (hash : ToeplitzHash) (ip ip' : BitVec 32)
    (port port' : BitVec 16) (value : BitVec 32) :
    (hash.insert ip port value).lookup ip' port' =
      if slotIndex ip port = slotIndex ip' port' then value
      else hash.lookup ip' port' :=
  hash.insert_table ip port value (slotIndex ip' port')

end ToeplitzHash

end PacketFilter.Hardware
