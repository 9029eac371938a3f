import Mathlib.Data.BitVec
import Mathlib.Data.List.Pairwise

/-! # Address map

How the 250 MHz box gives register accesses to its slaves: the address ranges of
the crossbar, and what the address map takes off an address behind it.
-/

namespace PacketFilter.Hardware.AddressMap

structure AddrRange where
  baseAddr : BitVec 32
  addrWidth : Nat
  deriving DecidableEq

def AddrRange.Contains (range : AddrRange) (addr : BitVec 32) : Prop :=
  range.baseAddr.toNat ≤ addr.toNat ∧
    addr.toNat < range.baseAddr.toNat + 2 ^ range.addrWidth

instance (range : AddrRange) (addr : BitVec 32) :
    Decidable (range.Contains addr) :=
  inferInstanceAs (Decidable (_ ∧ _))

/-- The configuration of the crossbar, slave by slave. The script leaves slave 0
its default base address and sets the one of slave 1 twice. -/
def crossbar (numPhysFunc : Nat) : List AddrRange :=
  [⟨0x0000, 7⟩, ⟨0x0080, 7⟩] ++
    if numPhysFunc = 2 then
      [⟨0x0100, 7⟩, ⟨0x0180, 7⟩, ⟨0x1000, 12⟩, ⟨0x2000, 12⟩, ⟨0x3000, 12⟩]
    else [⟨0x1000, 12⟩, ⟨0x2000, 12⟩]

/-- The numbers of physical functions that the scripts are written for. -/
structure Build where
  numPhysFunc : Nat
  supported : numPhysFunc = 1 ∨ numPhysFunc = 2

def cP2pIndex : Nat := 0
def cDummyIndex (numIntf : Nat) : Nat := numIntf * 2
def cUserIndex (numIntf : Nat) : Nat := numIntf * 2 + 1
def cNumSlaves (numIntf : Nat) : Nat := numIntf * 3 + 1

def cP2pBaseAddr : BitVec 32 := 0x0
def cSize : BitVec 32 := 0x80
def cUserBaseAddr : BitVec 32 := 0x2000
def cUserSize : BitVec 32 := 0x1000

def decode (numPhysFunc : Nat) (addr : BitVec 32) : Option Nat :=
  (crossbar numPhysFunc).findIdx? fun range => decide (range.Contains addr)

inductive Access where
  | p2p (i : Nat) (addr : BitVec 32)
  | dummy
  | user (j : Nat) (addr : BitVec 32)
  deriving DecidableEq

def wire (numIntf slave : Nat) (addr : BitVec 32) : Access :=
  if slave < cDummyIndex numIntf then
    let i := slave - cP2pIndex
    .p2p i (addr - cSize * BitVec.ofNat 32 i - cP2pBaseAddr)
  else if slave = cDummyIndex numIntf then .dummy
  else
    let j := slave - cUserIndex numIntf
    .user j (addr - cUserSize * BitVec.ofNat 32 j - cUserBaseAddr)

def access (numPhysFunc : Nat) (addr : BitVec 32) : Option Access :=
  (decode numPhysFunc addr).map fun slave => wire numPhysFunc slave addr

/-! ## Ranges that do not overlap -/

def Below (first second : AddrRange) : Prop :=
  first.baseAddr.toNat + 2 ^ first.addrWidth ≤ second.baseAddr.toNat

instance (first second : AddrRange) : Decidable (Below first second) :=
  inferInstanceAs (Decidable (_ ≤ _))

/-- Where the ranges ascend, the first one that holds an address is the only
one. -/
theorem findIdx?_of_below {ranges : List AddrRange}
    (ascending : ranges.Pairwise Below) (addr : BitVec 32) (slave : Nat) :
    (ranges.findIdx? fun range => decide (range.Contains addr)) = some slave ↔
      ∃ range, ranges[slave]? = some range ∧ range.Contains addr := by
  rw [List.findIdx?_eq_some_iff_getElem]
  constructor
  · rintro ⟨within, contains, _⟩
    exact ⟨_, List.getElem?_eq_getElem within, of_decide_eq_true contains⟩
  · rintro ⟨range, found, contains⟩
    rcases List.getElem?_eq_some_iff.mp found with ⟨within, rfl⟩
    refine ⟨within, decide_eq_true contains, fun earlier before held => ?_⟩
    have below : Below ranges[earlier] ranges[slave] :=
      List.pairwise_iff_getElem.mp ascending earlier slave _ within before
    exact absurd contains.1
      (Nat.not_le.mpr ((of_decide_eq_true held).2.trans_le below))

variable (build : Build)

theorem length_crossbar :
    (crossbar build.numPhysFunc).length = cNumSlaves build.numPhysFunc := by
  rcases build with ⟨_, rfl | rfl⟩
  · rfl
  · rfl

theorem crossbar_ascending : (crossbar build.numPhysFunc).Pairwise Below := by
  rcases build with ⟨_, rfl | rfl⟩
  · decide
  · decide

theorem decode_eq_some_iff (addr : BitVec 32) (slave : Nat) :
    decode build.numPhysFunc addr = some slave ↔
      ∃ range, (crossbar build.numPhysFunc)[slave]? = some range ∧
        range.Contains addr :=
  findIdx?_of_below (crossbar_ascending build) addr slave

/-! ## The slaves -/

theorem crossbar_user {j : Nat} (within : j < build.numPhysFunc) :
    (crossbar build.numPhysFunc)[cUserIndex build.numPhysFunc + j]? =
      some ⟨cUserSize * BitVec.ofNat 32 j + cUserBaseAddr, 12⟩ := by
  rcases build with ⟨_, rfl | rfl⟩
  · have zero : j = 0 := Nat.lt_one_iff.mp within
    subst zero
    rfl
  · change j < 2 at within
    have either : j = 0 ∨ j = 1 := by omega
    rcases either with rfl | rfl
    · rfl
    · rfl

theorem crossbar_p2p {i : Nat} (within : i < cDummyIndex build.numPhysFunc) :
    (crossbar build.numPhysFunc)[cP2pIndex + i]? =
      some ⟨cSize * BitVec.ofNat 32 i + cP2pBaseAddr, 7⟩ := by
  rcases build with ⟨_, rfl | rfl⟩
  · change i < 2 at within
    have either : i = 0 ∨ i = 1 := by omega
    rcases either with rfl | rfl
    · rfl
    · rfl
  · change i < 4 at within
    have either : i = 0 ∨ i = 1 ∨ i = 2 ∨ i = 3 := by omega
    rcases either with rfl | rfl | rfl | rfl
    · rfl
    · rfl
    · rfl
    · rfl

theorem contains_iff {base addr : BitVec 32} {addrWidth : Nat}
    (inSpace : base.toNat + 2 ^ addrWidth ≤ 2 ^ 32) :
    AddrRange.Contains ⟨base, addrWidth⟩ addr ↔
      ∃ inside : BitVec 32, inside.toNat < 2 ^ addrWidth ∧
        addr = base + inside := by
  constructor
  · rintro ⟨least, below⟩
    dsimp only at least below
    have inside : (addr - base).toNat = addr.toNat - base.toNat :=
      BitVec.toNat_sub_of_le least
    refine ⟨addr - base, by omega, ?_⟩
    rw [BitVec.add_comm, BitVec.sub_add_cancel]
  · rintro ⟨inside, small, rfl⟩
    have sum : (base + inside).toNat = base.toNat + inside.toNat := by
      rw [BitVec.toNat_add, Nat.mod_eq_of_lt (by omega)]
    simp only [AddrRange.Contains, sum]
    omega

theorem decode_user_iff {j : Nat} (within : j < build.numPhysFunc)
    (addr : BitVec 32) :
    decode build.numPhysFunc addr = some (cUserIndex build.numPhysFunc + j) ↔
      ∃ inside : BitVec 32, inside.toNat < 2 ^ 12 ∧
        addr = cUserSize * BitVec.ofNat 32 j + cUserBaseAddr + inside := by
  have either : j = 0 ∨ j = 1 := by
    rcases build.supported with one | two <;> omega
  have inSpace : (cUserSize * BitVec.ofNat 32 j + cUserBaseAddr).toNat + 2 ^ 12 ≤
      2 ^ 32 := by
    rcases either with rfl | rfl <;> decide
  rw [decode_eq_some_iff, crossbar_user build within]
  simp only [Option.some.injEq, exists_eq_left']
  exact contains_iff inSpace

theorem decode_p2p_iff {i : Nat} (within : i < cDummyIndex build.numPhysFunc)
    (addr : BitVec 32) :
    decode build.numPhysFunc addr = some (cP2pIndex + i) ↔
      ∃ inside : BitVec 32, inside.toNat < 2 ^ 7 ∧
        addr = cSize * BitVec.ofNat 32 i + cP2pBaseAddr + inside := by
  have fewer : i = 0 ∨ i = 1 ∨ i = 2 ∨ i = 3 := by
    rw [cDummyIndex] at within
    rcases build.supported with one | two <;> omega
  have inSpace : (cSize * BitVec.ofNat 32 i + cP2pBaseAddr).toNat + 2 ^ 7 ≤
      2 ^ 32 := by
    rcases fewer with rfl | rfl | rfl | rfl <;> decide
  rw [decode_eq_some_iff, crossbar_p2p build within]
  simp only [Option.some.injEq, exists_eq_left']
  exact contains_iff inSpace

theorem wire_user (numIntf j : Nat) (addr : BitVec 32) :
    wire numIntf (cUserIndex numIntf + j) addr =
      .user j (addr - cUserSize * BitVec.ofNat 32 j - cUserBaseAddr) := by
  have notP2p : ¬ cUserIndex numIntf + j < cDummyIndex numIntf := by
    rw [cUserIndex, cDummyIndex]
    omega
  have notDummy : cUserIndex numIntf + j ≠ cDummyIndex numIntf := by
    rw [cUserIndex, cDummyIndex]
    omega
  rw [wire, if_neg notP2p, if_neg notDummy]
  simp only [Nat.add_sub_cancel_left]

theorem wire_p2p {numIntf i : Nat} (within : i < cDummyIndex numIntf)
    (addr : BitVec 32) :
    wire numIntf (cP2pIndex + i) addr =
      .p2p i (addr - cSize * BitVec.ofNat 32 i - cP2pBaseAddr) := by
  rw [wire, if_pos (by rwa [cP2pIndex, Nat.zero_add])]
  simp only [Nat.add_sub_cancel_left]

theorem slave_cases {addr : BitVec 32} {slave : Nat}
    (decoded : decode build.numPhysFunc addr = some slave) :
    (∃ i, i < cDummyIndex build.numPhysFunc ∧ slave = cP2pIndex + i) ∨
      slave = cDummyIndex build.numPhysFunc ∨
      ∃ j, j < build.numPhysFunc ∧
        slave = cUserIndex build.numPhysFunc + j := by
  rcases (decode_eq_some_iff build addr slave).mp decoded with ⟨_, found, _⟩
  have within : slave < cNumSlaves build.numPhysFunc := by
    rw [← length_crossbar build]
    exact (List.getElem?_eq_some_iff.mp found).1
  simp only [cNumSlaves, cDummyIndex, cUserIndex, cP2pIndex] at within ⊢
  rcases Nat.lt_trichotomy slave (build.numPhysFunc * 2) with
    before | same | behind
  · exact .inl ⟨slave, before, by omega⟩
  · exact .inr (.inl same)
  · exact .inr (.inr ⟨slave - (build.numPhysFunc * 2 + 1), by omega, by omega⟩)

/-- What the address map takes off an address is the base of the range that
holds it. -/
theorem access_user_iff (j : Nat) (addr inside : BitVec 32) :
    access build.numPhysFunc addr = some (.user j inside) ↔
      j < build.numPhysFunc ∧ inside.toNat < 2 ^ 12 ∧
        addr = cUserSize * BitVec.ofNat 32 j + cUserBaseAddr + inside := by
  have taken : ∀ base off value : BitVec 32,
      off + base + value - off - base = value := fun base off value => by grind
  rw [access, Option.map_eq_some_iff]
  constructor
  · rintro ⟨slave, decoded, wired⟩
    rcases slave_cases build decoded with
      ⟨i, within, rfl⟩ | rfl | ⟨user, within, rfl⟩
    · rw [wire_p2p within] at wired
      cases wired
    · rw [wire, if_neg (Nat.lt_irrefl _), if_pos rfl] at wired
      cases wired
    · rcases (decode_user_iff build within addr).mp decoded with
        ⟨value, small, rfl⟩
      rw [wire_user, taken] at wired
      cases wired
      exact ⟨within, small, rfl⟩
  · rintro ⟨within, small, rfl⟩
    refine ⟨cUserIndex build.numPhysFunc + j, ?_, ?_⟩
    · exact (decode_user_iff build within _).mpr ⟨inside, small, rfl⟩
    · rw [wire_user, taken]

theorem access_p2p_iff (i : Nat) (addr inside : BitVec 32) :
    access build.numPhysFunc addr = some (.p2p i inside) ↔
      i < cDummyIndex build.numPhysFunc ∧ inside.toNat < 2 ^ 7 ∧
        addr = cSize * BitVec.ofNat 32 i + cP2pBaseAddr + inside := by
  have taken : ∀ base off value : BitVec 32,
      off + base + value - off - base = value := fun base off value => by grind
  rw [access, Option.map_eq_some_iff]
  constructor
  · rintro ⟨slave, decoded, wired⟩
    rcases slave_cases build decoded with
      ⟨intf, within, rfl⟩ | rfl | ⟨user, within, rfl⟩
    · rcases (decode_p2p_iff build within addr).mp decoded with
        ⟨value, small, rfl⟩
      rw [wire_p2p within, taken] at wired
      cases wired
      exact ⟨within, small, rfl⟩
    · rw [wire, if_neg (Nat.lt_irrefl _), if_pos rfl] at wired
      cases wired
    · rw [wire_user] at wired
      cases wired
  · rintro ⟨within, small, rfl⟩
    refine ⟨cP2pIndex + i, ?_, ?_⟩
    · exact (decode_p2p_iff build within _).mpr ⟨inside, small, rfl⟩
    · rw [wire_p2p within, taken]

end PacketFilter.Hardware.AddressMap
