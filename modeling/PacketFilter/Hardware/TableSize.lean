import PacketFilter.Hardware.Hash

/-! # Other table sizes

`HASH_TABLE_SIZE` is the one number to change for a larger or smaller table. The
bits, the mask and the index follow from it.
-/

namespace PacketFilter.Hardware

/-- A positive `int` that the table can be declared with. -/
structure TableSize where
  entries : BitVec 32
  positive : 1 ≤ entries.toNat
  inRange : entries.toNat < 2 ^ 31

namespace TableSize

variable (size : TableSize)

def count : Nat := size.entries.toNat

def bits : Nat := hashBits size.entries

def index (hash : BitVec 32) : Int :=
  (hash &&& hashMask size.entries).toInt

def declared : TableSize := ⟨32, by decide, by decide⟩

theorem count_declared : declared.count = hashTableSize := rfl

/-! ## The mask -/

theorem two_pow_bits_le : 2 ^ size.bits ≤ size.count := by
  apply BitVec.two_pow_sub_clz_le_toNat_of_ne_zero (by decide)
  intro isZero
  have positive := size.positive
  rw [isZero] at positive
  exact absurd positive (by decide)

theorem count_lt : size.count < 2 ^ (size.bits + 1) := by
  have bound : size.count < 2 ^ (32 - size.entries.clz.toNat) :=
    BitVec.toNat_lt_two_pow_sub_clz
  apply bound.trans_le
  apply Nat.pow_le_pow_right (by decide)
  rw [bits, hashBits]
  omega

theorem bits_lt : size.bits < 31 :=
  (Nat.pow_lt_pow_iff_right (by decide)).mp
    (size.two_pow_bits_le.trans_lt size.inRange)

theorem toNat_hashMask :
    (hashMask size.entries).toNat = 2 ^ size.bits - 1 := by
  have small : 2 ^ size.bits < 2 ^ 32 :=
    Nat.pow_lt_pow_right (by decide) (size.bits_lt.trans (by decide))
  have positive := Nat.two_pow_pos size.bits
  have shifted : (1#64 <<< size.bits).toNat = 2 ^ size.bits := by
    have one : (1#64).toNat = 1 := rfl
    rw [BitVec.toNat_shiftLeft, Nat.shiftLeft_eq, one, Nat.one_mul]
    exact Nat.mod_eq_of_lt (by omega)
  have bounded : (1 : BitVec 64) ≤ 1#64 <<< size.bits := by
    rw [BitVec.le_def, shifted]
    exact positive
  rw [hashMask, ← bits, BitVec.toNat_setWidth, BitVec.toNat_sub_of_le bounded,
    shifted]
  change (2 ^ size.bits - 1) % 2 ^ 32 = _
  exact Nat.mod_eq_of_lt (by omega)

/-- Masking the hash is taking its lowest bits. -/
theorem index_eq (hash : BitVec 32) :
    size.index hash = (hash.toNat % 2 ^ size.bits : Nat) := by
  have masked : (hash &&& hashMask size.entries).toNat =
      hash.toNat % 2 ^ size.bits := by
    rw [BitVec.toNat_and, toNat_hashMask, Nat.and_two_pow_sub_one_eq_mod]
  have below : hash.toNat % 2 ^ size.bits < 2 ^ size.bits :=
    Nat.mod_lt _ (Nat.two_pow_pos _)
  have small : 2 ^ size.bits < 2 ^ 31 :=
    Nat.pow_lt_pow_right (by decide) size.bits_lt
  rw [index, BitVec.toInt_eq_toNat_of_lt (by omega), masked]

theorem index_lt (hash : BitVec 32) :
    0 ≤ size.index hash ∧ size.index hash < size.count := by
  have below : hash.toNat % 2 ^ size.bits < 2 ^ size.bits :=
    Nat.mod_lt _ (Nat.two_pow_pos _)
  have inside := size.two_pow_bits_le
  rw [index_eq]
  omega

def slot (ip : BitVec 32) (port : BitVec 16) : Fin size.count :=
  ⟨(size.index (computeHash ip port)).toNat, by
    have inside := size.index_lt (computeHash ip port)
    omega⟩

theorem slot_val (ip : BitVec 32) (port : BitVec 16) :
    (size.slot ip port).val = (computeHash ip port).toNat % 2 ^ size.bits := by
  have isIndex := congrArg Int.toNat (size.index_eq (computeHash ip port))
  rw [Int.toNat_natCast] at isIndex
  exact isIndex

theorem slot_declared (ip : BitVec 32) (port : BitVec 16) :
    (declared.slot ip port).cast count_declared = slotIndex ip port := by
  apply Fin.ext
  rw [Fin.val_cast, slot_val, slotIndex_val]
  rfl

end TableSize

/-! ## Tables of any size -/

structure SizedHash (size : TableSize) where
  table : Fin size.count → BitVec 32

namespace SizedHash

variable {size : TableSize}

def initial : SizedHash size where
  table := fun _ => 0

def lookup (hash : SizedHash size) (ip : BitVec 32) (port : BitVec 16) :
    BitVec 32 :=
  hash.table (size.slot ip port)

def insert (hash : SizedHash size) (ip : BitVec 32) (port : BitVec 16)
    (value : BitVec 32) : SizedHash size where
  table := Function.update hash.table (size.slot ip port) value

theorem lookup_insert (hash : SizedHash size) (ip ip' : BitVec 32)
    (port port' : BitVec 16) (value : BitVec 32) :
    (hash.insert ip port value).lookup ip' port' =
      if size.slot ip port = size.slot ip' port' then value
      else hash.lookup ip' port' := by
  by_cases same : size.slot ip port = size.slot ip' port'
  · simp [insert, lookup, same]
  · simp [insert, lookup, same, Function.update_of_ne (Ne.symm same)]

/-- The table of the source, taken as one of its size. -/
def ofDeclared (hash : ToeplitzHash) : SizedHash .declared where
  table := fun slot => hash.table (slot.cast TableSize.count_declared)

theorem lookup_ofDeclared (hash : ToeplitzHash) (ip : BitVec 32)
    (port : BitVec 16) :
    (ofDeclared hash).lookup ip port = hash.lookup ip port :=
  congrArg hash.table (TableSize.slot_declared ip port)

theorem insert_ofDeclared (hash : ToeplitzHash) (ip : BitVec 32)
    (port : BitVec 16) (value : BitVec 32) :
    (ofDeclared hash).insert ip port value =
      ofDeclared (hash.insert ip port value) := by
  rw [insert, ofDeclared, ofDeclared, ToeplitzHash.insert,
    ← TableSize.slot_declared]
  rfl

end SizedHash

end PacketFilter.Hardware
