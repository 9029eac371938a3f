import PacketFilter.Contracts.Snapshot
import PacketFilter.Foundation.SplitRead
import PacketFilter.Software.Mmio

/-! # Reading a 64-bit counter

`MMIO::read` fetches a 64-bit register in two accesses, and the hardware goes on
counting in between.
-/

namespace PacketFilter.Contracts

open Hardware Software SplitRead

/-! ## Two words -/

def words : BitVec 64 ≃ BitVec 32 × BitVec 32 where
  toFun value := ((value >>> 32).setWidth 32, value.setWidth 32)
  invFun := fun (high, low) => (high.setWidth 64 <<< 32) ||| low.setWidth 64
  left_inv value := by
    ext index
    simp
    grind
  right_inv := fun (high, low) => by
    rw [Prod.mk.injEq]
    constructor
    · ext index
      simp
      grind
    · ext index
      simp

theorem toNat_words_fst (value : BitVec 64) :
    (words value).1.toNat = value.toNat / 2 ^ 32 := by
  simp [words, Nat.shiftRight_eq_div_pow]
  omega

theorem toNat_words_snd (value : BitVec 64) :
    (words value).2.toNat = value.toNat % 2 ^ 32 := by
  simp [words]

/-! ## Two accesses -/

structure Registers where
  base : BitVec 32
  isSet : base ≠ 0

def Registers.packetFilter : Registers := ⟨baseAddr, baseAddr_ne_zero⟩

namespace Registers

variable {Shared Act : Type} (registers : Registers)

/-- `MMIO::read<uint64_t>` of registers that change meanwhile. -/
def readUint64 (advance : Shared → List Act → Shared)
    (word : BitVec 32 → Shared → BitVec 32) (offset : BitVec 32) :
    Interleaved Shared Act (Except (List Char) (BitVec 64)) :=
  (Software.read (fun address => Interleaved.access advance (word address))
    registers.base .uint64 offset).run

theorem run_readUint64 (advance : Shared → List Act → Shared)
    (word : BitVec 32 → Shared → BitVec 32) (offset : BitVec 32)
    (shared : Shared) (first second : List Act) :
    ((registers.readUint64 advance word offset).run
      (shared, [first, second])).1 =
      .ok (words.symm
        (word (registers.base + offset + 4)
            (advance (advance shared first) second),
          word (registers.base + offset) (advance shared first))) := by
  have wide : ¬ Integral.uint64.bits ≤ 32 := by decide
  have next : registers.base + (offset + 4) = registers.base + offset + 4 :=
    (BitVec.add_assoc _ _ _).symm
  rw [readUint64, read_of_wide wide, mmioRegRead_of_set registers.isSet,
    mmioRegRead_of_set registers.isSet, next]
  rfl

/-! ## A counter that the hardware replaces -/

def counterWord (register address : BitVec 32) (counter : BitVec 64) :
    BitVec 32 :=
  if address = register then (words counter).2
  else if address = register + 4 then (words counter).1
  else 0

/-- Every replacement is of both words at once. -/
def readCounter (offset : BitVec 32) (window : Window (BitVec 64)) :
    Except (List Char) (BitVec 64) :=
  ((registers.readUint64
      (fun counter replacements => replacements.getLastD counter)
      (counterWord (registers.base + offset)) offset).run
    (window.start, [window.lead, window.between])).1

theorem readCounter_eq (offset : BitVec 32) (window : Window (BitVec 64)) :
    registers.readCounter offset window =
      .ok (mixture words window.first window.second) := by
  have other : registers.base + offset + 4 ≠ registers.base + offset := by
    simp
  rw [readCounter, run_readUint64, counterWord, counterWord, if_neg other,
    if_pos rfl, if_pos rfl]
  rfl

end Registers

/-! ## A counter that grows slowly -/

theorem toNat_mixture (first second : BitVec 64) :
    (mixture words first second).toNat =
      second.toNat / 2 ^ 32 * 2 ^ 32 + first.toNat % 2 ^ 32 := by
  rcases (eq_mixture_iff words first second _).mp rfl with ⟨upper, lower⟩
  rw [← toNat_words_fst, ← upper, toNat_words_fst, ← toNat_words_snd, ← lower,
    toNat_words_snd]
  omega

section Slow

variable {window : Window (BitVec 64)}

theorem toNat_le_last {value : BitVec 64} (member : value ∈ window.held) :
    value.toNat ≤ window.last.toNat := by
  rcases window.eq_or_lt_last member with same | less
  · rw [same]
  · exact Nat.le_of_lt less

theorem first_le_second (window : Window (BitVec 64)) :
    window.first.toNat ≤ window.second.toNat := by
  rcases window.first_eq_or_lt_second with same | less
  · rw [same]
  · exact Nat.le_of_lt less

theorem steady_iff : window.Steady words ↔
    window.first.toNat / 2 ^ 32 = window.second.toNat / 2 ^ 32 := by
  rw [← toNat_words_fst, ← toNat_words_fst, BitVec.toNat_inj]
  rfl

def Slow (window : Window (BitVec 64)) : Prop :=
  window.last.toNat < window.first.toNat + 2 ^ 32

theorem Slow.toNat_torn (slow : Slow window) (torn : ¬ window.Steady words) :
    (mixture words window.first window.second).toNat =
      window.first.toNat + 2 ^ 32 := by
  have grew := first_le_second window
  have bound := toNat_le_last window.second_mem_held
  rw [steady_iff] at torn
  rw [Slow] at slow
  rw [toNat_mixture]
  omega

/-- A torn read of such a counter shows `2 ^ 32` too much, more than the
counter holds when the read is over. -/
theorem Slow.readCounter_torn (slow : Slow window)
    (torn : ¬ window.Steady words) (registers : Registers)
    (offset : BitVec 32) :
    registers.readCounter offset window =
        .ok (window.first + 0x100000000#64) ∧
      window.last < window.first + 0x100000000#64 := by
  have total := slow.toNat_torn torn
  have exact_sum : mixture words window.first window.second =
      window.first + 0x100000000#64 := by
    apply BitVec.eq_of_toNat_eq
    have bound := (mixture words window.first window.second).isLt
    rw [total] at bound ⊢
    rw [BitVec.toNat_add]
    exact (Nat.mod_eq_of_lt bound).symm
  constructor
  · rw [registers.readCounter_eq, exact_sum]
  · rw [← exact_sum, BitVec.lt_def, total]
    exact slow

end Slow

/-- A read returns a value the counter held during it if the upper word is the
same in both accesses, and only then unless the counter grows by `2 ^ 32` or more
meanwhile. -/
theorem counter_read_held (registers : Registers) (offset : BitVec 32)
    (window : Window (BitVec 64)) :
    (window.Steady words →
        ∃ value ∈ window.held,
          registers.readCounter offset window = .ok value) ∧
      (Slow window →
        ((∃ value ∈ window.held,
            registers.readCounter offset window = .ok value) ↔
          window.Steady words)) := by
  have held_of_steady (steady : window.Steady words) :
      ∃ value ∈ window.held,
        registers.readCounter offset window = .ok value := by
    refine ⟨window.first, window.first_mem_held, ?_⟩
    rw [registers.readCounter_eq, mixture_of_upper_eq words steady]
  refine ⟨held_of_steady, fun slow => ⟨?_, held_of_steady⟩⟩
  intro held
  rcases held with ⟨value, member, isValue⟩
  by_contra torn
  rcases slow.readCounter_torn torn registers offset with ⟨isTorn, above⟩
  rcases Except.ok.inj (isTorn.symm.trans isValue) with rfl
  exact absurd (toNat_le_last member) (Nat.not_le_of_lt above)

def carried : Window (BitVec 64) where
  start := 0x00000000FFFFFFFF
  lead := []
  between := [0x0000000100000000]
  trail := []
  growing := by decide

theorem not_counter_read_held :
    ¬ ∀ (registers : Registers) (offset : BitVec 32)
      (window : Window (BitVec 64)), ∃ value ∈ window.held,
        registers.readCounter offset window = .ok value := by
  intro held
  rcases held .packetFilter statsPktInReg carried with ⟨value, member, isValue⟩
  rw [Registers.readCounter_eq] at isValue
  rcases Except.ok.inj isValue with rfl
  exact absurd member (by decide)

/-! ## The counters of the core -/

def statsRegs : List (BitVec 32) :=
  [statsPktInReg, statsPhitInReg, statsPktForwdReg, statsPktDropReg]

def statsWord (address : BitVec 32) (device : Device) : BitVec 32 :=
  let offset := address - baseAddr
  if offset ∈ statsRegs then (words (statsRegister device.stats offset)).2
  else (words (statsRegister device.stats (offset - 4))).1

theorem upper_not_stats {offset : BitVec 32} (isStats : offset ∈ statsRegs) :
    offset + 4 ∉ statsRegs := by
  simp only [statsRegs, statsPktInReg, statsPhitInReg, statsPktForwdReg,
    statsPktDropReg, List.mem_cons, List.not_mem_nil, or_false] at isStats ⊢
  rcases isStats with rfl | rfl | rfl | rfl <;> simp

theorem statsWord_lower {offset : BitVec 32} (isStats : offset ∈ statsRegs)
    (device : Device) :
    statsWord (baseAddr + offset) device =
      (words (statsRegister device.stats offset)).2 := by
  rw [statsWord, BitVec.add_comm, BitVec.add_sub_cancel]
  exact if_pos isStats

theorem statsWord_upper {offset : BitVec 32} (isStats : offset ∈ statsRegs)
    (device : Device) :
    statsWord (baseAddr + offset + 4) device =
      (words (statsRegister device.stats offset)).1 := by
  rw [statsWord, BitVec.add_assoc, BitVec.add_comm baseAddr,
    BitVec.add_sub_cancel, BitVec.add_sub_cancel]
  exact if_neg (upper_not_stats isStats)

/-- A read in two accesses agrees with the atomic read of the report when the
upper word is not published anew in between. -/
theorem readUint64_eq_readStats {offset : BitVec 32}
    (isStats : offset ∈ statsRegs) (device : Device)
    (lead between : List Invocation)
    (steady : (words (statsRegister (hardware.run device lead).stats offset)).1 =
      (words (statsRegister
        (hardware.run device (lead ++ between)).stats offset)).1) :
    ((Registers.packetFilter.readUint64 hardware.run statsWord offset).run
      (device, [lead, between])).1 =
      .ok ((readStats offset).run (device, [lead])).1 := by
  rw [Mealy.run_append] at steady
  have lower := statsWord_lower isStats (hardware.run device lead)
  have upper := statsWord_upper isStats
    (hardware.run (hardware.run device lead) between)
  rw [Registers.run_readUint64]
  simp only [Registers.packetFilter]
  rw [lower, upper, ← steady]
  exact congrArg Except.ok (words.symm_apply_apply _)

end PacketFilter.Contracts
