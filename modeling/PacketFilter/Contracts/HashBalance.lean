import PacketFilter.Foundation.Fibres
import PacketFilter.Foundation.XorSums
import PacketFilter.Hardware.TableSize

/-! # Balance of the hash

The Toeplitz hash is linear over exclusive or, and every word is the hash of an
address. So the slots of the table share the addresses evenly.
-/

namespace PacketFilter.Contracts

open Hardware Fibres

/-! ## Linearity -/

theorem getWindow_xor (bit bit' : Bool) (offset : Nat) :
    getWindow (bit ^^ bit') offset =
      getWindow bit offset ^^^ getWindow bit' offset := by
  cases bit <;> cases bit' <;> simp [getWindow]

theorem foldl_getWindow_xor (indices : List Nat) (offset : Nat → Nat)
    (bits bits' : Nat → Bool) (hash hash' : BitVec 32) :
    indices.foldl
        (fun hash i => hash ^^^ getWindow (bits i ^^ bits' i) (offset i))
        (hash ^^^ hash') =
      indices.foldl (fun hash i => hash ^^^ getWindow (bits i) (offset i))
          hash ^^^
        indices.foldl (fun hash i => hash ^^^ getWindow (bits' i) (offset i))
          hash' := by
  induction indices generalizing hash hash' with
  | nil => rfl
  | cons i rest induction =>
      have regrouped :
          hash ^^^ hash' ^^^ getWindow (bits i ^^ bits' i) (offset i) =
            (hash ^^^ getWindow (bits i) (offset i)) ^^^
              (hash' ^^^ getWindow (bits' i) (offset i)) := by
        rw [getWindow_xor]
        ac_rfl
      rw [List.foldl_cons, regrouped, induction]
      rfl

theorem computeHash_xor (ip ip' : BitVec 32) (port port' : BitVec 16) :
    computeHash (ip ^^^ ip') (port ^^^ port') =
      computeHash ip port ^^^ computeHash ip' port' := by
  have ipPart :
      (List.range 32).foldl (fun hash i =>
          hash ^^^ getWindow (ip.getLsbD i ^^ ip'.getLsbD i) i) 0 =
        (List.range 32).foldl (fun hash i =>
            hash ^^^ getWindow (ip.getLsbD i) i) 0 ^^^
          (List.range 32).foldl (fun hash i =>
            hash ^^^ getWindow (ip'.getLsbD i) i) 0 :=
    foldl_getWindow_xor (List.range 32) id ip.getLsbD ip'.getLsbD 0 0
  simp only [computeHash, BitVec.getLsbD_xor]
  rw [ipPart]
  exact foldl_getWindow_xor (List.range 16) (· + 32) port.getLsbD port'.getLsbD
    _ _

theorem slotIndex_eq_iff_xor (ip ip' : BitVec 32) (port port' : BitVec 16) :
    slotIndex ip port = slotIndex ip' port' ↔
      (computeHash (ip ^^^ ip') (port ^^^ port')).setWidth 5 = 0 := by
  rw [slotIndex_eq_iff, computeHash_xor, BitVec.setWidth_xor]
  exact BitVec.xor_eq_zero_iff.symm

/-! ## Every hash is the hash of an address -/

section EveryHash

open XorSums

/-- For every bit the address whose hash is that bit alone, with port 0. -/
def bitAddresses : List (BitVec 32) :=
  [0x5216C5BA, 0x7B1DA767, 0xE04D408E, 0x223065FD, 0x9ECD6479, 0xC0B3E4BB,
    0xEF8CA4DA, 0x77C6526D, 0xE620BA0B, 0xFCC50B82, 0x2C74407B, 0xCBF9B300,
    0x65FCD980, 0x60E8A97A, 0x307454BD, 0xC5F9B963, 0xED298A36, 0x248200A1,
    0x9D9456D7, 0x9309B856, 0x4984DC2B, 0xF901FD28, 0x7C80FE94, 0x6C56BAF0,
    0x643D98C2, 0x600809DB, 0xEDC797D0, 0x24F50E52, 0x406C4293, 0xAFE377CE,
    0x57F1BBE7, 0xA42D8B74]

theorem computeHash_bitAddresses (bit : Fin 32) :
    computeHash (bitAddresses.getD bit 0) 0 = BitVec.twoPow 32 bit := by
  revert bit
  decide +kernel

def addressOf (hash : BitVec 32) : BitVec 32 :=
  xorSum 32 fun bit =>
    if hash.getLsbD bit then bitAddresses.getD bit 0 else 0

theorem computeHash_addressOf (hash : BitVec 32) :
    computeHash (addressOf hash) 0 = hash := by
  have linear : ∀ ip ip' : BitVec 32,
      computeHash (ip ^^^ ip') 0 = computeHash ip 0 ^^^ computeHash ip' 0 :=
    fun ip ip' => computeHash_xor ip ip' 0 0
  have zero : computeHash 0 0 = 0 := by decide +kernel
  calc
    computeHash (addressOf hash) 0 = xorSum 32 fun bit =>
        computeHash
          (if hash.getLsbD bit then bitAddresses.getD bit 0 else 0) 0 :=
      map_xorSum (fun ip => computeHash ip 0) linear 32 _
    _ = xorSum 32 (bitTerm hash) := by
      apply xorSum_congr
      intro bit below
      rw [bitTerm]
      split
      · exact computeHash_bitAddresses ⟨bit, below⟩
      · exact zero
    _ = hash := xorSum_bitTerm hash

end EveryHash

/-! ## Balance -/

abbrev Key := BitVec 32 × BitVec 16

def keySlot (key : Key) : Fin hashTableSize := slotIndex key.1 key.2

def Key.xor (key other : Key) : Key := (key.1 ^^^ other.1, key.2 ^^^ other.2)

theorem Key.xor_xor_cancel (key key' mask : Key) :
    (key.xor mask).xor (key'.xor mask) = key.xor key' := by
  have cancel : ∀ {width : Nat} (word word' mask : BitVec width),
      word ^^^ mask ^^^ (word' ^^^ mask) = word ^^^ word' := by
    intro width word word' mask
    rw [BitVec.xor_comm word', ← BitVec.xor_assoc, BitVec.xor_assoc word,
      BitVec.xor_self, BitVec.xor_zero]
  exact Prod.ext (cancel _ _ _) (cancel _ _ _)

theorem Key.xor_xor_right (key mask : Key) : (key.xor mask).xor mask = key := by
  have cancel : ∀ {width : Nat} (word mask : BitVec width),
      word ^^^ mask ^^^ mask = word := by
    intro width word mask
    rw [BitVec.xor_assoc, BitVec.xor_self, BitVec.xor_zero]
  exact Prod.ext (cancel _ _) (cancel _ _)

def Key.mask (mask : Key) : Equiv.Perm Key :=
  Function.Involutive.toPerm (fun key => key.xor mask) fun key =>
    key.xor_xor_right mask

theorem Key.xor_xor_self (key key' : Key) : key.xor (key.xor key') = key' := by
  have cancel : ∀ {width : Nat} (word word' : BitVec width),
      word ^^^ (word ^^^ word') = word' := by
    intro width word word'
    rw [← BitVec.xor_assoc, BitVec.xor_self, BitVec.zero_xor]
  exact Prod.ext (cancel _ _) (cancel _ _)

theorem card_key : Nat.card Key = 2 ^ 48 := by
  rw [Nat.card_prod, Nat.card_congr BitVec.equivFin.toEquiv,
    Nat.card_congr BitVec.equivFin.toEquiv, Nat.card_fin, Nat.card_fin]
  rfl

section Slots

variable (size : TableSize)

def liveSlot (key : Key) : Fin (2 ^ size.bits) :=
  ⟨(computeHash key.1 key.2).toNat % 2 ^ size.bits,
    Nat.mod_lt _ (Nat.two_pow_pos _)⟩

theorem exists_key_of_liveSlot (slot : Fin (2 ^ size.bits)) :
    ∃ key : Key, liveSlot size key = slot := by
  have small : 2 ^ size.bits < 2 ^ 31 :=
    Nat.pow_lt_pow_right (by decide) size.bits_lt
  have inRange : slot.val < 2 ^ 32 := by omega
  refine ⟨(addressOf (BitVec.ofNat 32 slot.val), 0), ?_⟩
  apply Fin.ext
  change (computeHash (addressOf _) 0).toNat % 2 ^ size.bits = _
  rw [computeHash_addressOf, BitVec.toNat_ofNat, Nat.mod_eq_of_lt inRange,
    Nat.mod_eq_of_lt slot.isLt]

/-- Keys share a slot exactly when the low bits of the hash of their difference
vanish. -/
theorem liveSlot_eq_iff (key key' : Key) :
    liveSlot size key = liveSlot size key' ↔
      (computeHash (key.xor key').1 (key.xor key').2).setWidth size.bits =
        0 := by
  rw [Key.xor, computeHash_xor, BitVec.setWidth_xor]
  refine Iff.trans ?_ BitVec.xor_eq_zero_iff.symm
  rw [BitVec.toNat_eq, BitVec.toNat_setWidth, BitVec.toNat_setWidth,
    Fin.ext_iff]
  rfl

theorem card_liveSlot_eq (slot slot' : Fin (2 ^ size.bits)) :
    Nat.card (Fibre (liveSlot size) slot) =
      Nat.card (Fibre (liveSlot size) slot') := by
  rcases exists_key_of_liveSlot size slot with ⟨key, rfl⟩
  rcases exists_key_of_liveSlot size slot' with ⟨key', rfl⟩
  apply card_fibre_eq (liveSlot size) (key.xor key').mask
  intro other
  have carried : (other.xor (key.xor key')).xor (key.xor (key.xor key')) =
      other.xor key := Key.xor_xor_cancel other key (key.xor key')
  rw [Key.xor_xor_self] at carried
  rw [liveSlot_eq_iff, liveSlot_eq_iff, ← carried]
  rfl

theorem card_liveSlot (slot : Fin (2 ^ size.bits)) :
    Nat.card (Fibre (liveSlot size) slot) = 2 ^ (48 - size.bits) := by
  have finite : Finite Key :=
    Nat.finite_of_card_ne_zero (by rw [card_key]; decide)
  have share := card_mul_card_fibre (liveSlot size) (card_liveSlot_eq size)
    slot
  have bounded := size.bits_lt
  have total : 2 ^ size.bits * 2 ^ (48 - size.bits) = 2 ^ 48 := by
    rw [← Nat.pow_add]
    congr 1
    omega
  rw [card_key, Nat.card_fin, ← total] at share
  exact Nat.eq_of_mul_eq_mul_left (Nat.two_pow_pos _) share

end Slots

theorem card_slot (slot : Fin hashTableSize) :
    Nat.card (Fibre keySlot slot) = 2 ^ 43 := by
  have live : slot.val < 2 ^ TableSize.declared.bits := slot.isLt
  have share : Nat.card (Fibre (liveSlot .declared) ⟨slot, live⟩) = 2 ^ 43 :=
    card_liveSlot .declared ⟨slot, live⟩
  rw [← share]
  apply Nat.card_congr (Equiv.subtypeEquivRight _)
  intro key
  rw [keySlot, Fin.ext_iff, Fin.ext_iff, slotIndex_val]
  rfl

theorem lookup_insert_initial_iff (ip : BitVec 32) (port : BitVec 16)
    (key : Key) :
    (ToeplitzHash.initial.insert ip port 1).lookup key.1 key.2 = 1 ↔
      keySlot key = slotIndex ip port := by
  rw [ToeplitzHash.lookup_insert, keySlot, eq_comm (a := slotIndex key.1 key.2)]
  constructor
  · intro opened
    by_contra elsewhere
    rw [if_neg elsewhere] at opened
    have shut : (0 : BitVec 32) = 1 := opened
    exact absurd shut (by decide)
  · intro same
    rw [if_pos same]

/-- The index is linear and balanced: every slot belongs to `2 ^ 43` of the
`2 ^ 48` keys, and so one forwarding rule opens one part in 32 of them. -/
theorem hash_balanced :
    (∀ (ip ip' : BitVec 32) (port port' : BitVec 16),
        computeHash (ip ^^^ ip') (port ^^^ port') =
          computeHash ip port ^^^ computeHash ip' port') ∧
      (∀ (ip ip' : BitVec 32) (port port' : BitVec 16),
        slotIndex ip port = slotIndex ip' port' ↔
          (computeHash (ip ^^^ ip') (port ^^^ port')).setWidth 5 = 0) ∧
      (∀ slot : Fin hashTableSize,
        Nat.card { key : Key // slotIndex key.1 key.2 = slot } = 2 ^ 43) ∧
      ∀ (ip : BitVec 32) (port : BitVec 16),
        32 * Nat.card { key : Key //
            (ToeplitzHash.initial.insert ip port 1).lookup key.1 key.2 = 1 } =
          Nat.card Key := by
  refine ⟨computeHash_xor, slotIndex_eq_iff_xor, card_slot, ?_⟩
  intro ip port
  have opened := Nat.card_congr
    (Equiv.subtypeEquivRight (lookup_insert_initial_iff ip port))
  rw [opened, card_key, card_slot (slotIndex ip port)]
  rfl

end PacketFilter.Contracts
