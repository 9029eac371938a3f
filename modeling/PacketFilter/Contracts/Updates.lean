import Mathlib.Data.Set.Basic
import PacketFilter.Contracts.Installation

/-! # Update contracts

What any calls of `update_rule` leave behind when an idle invocation follows
every register write: a set of open addresses, in which each call rules over two
slots.
-/

namespace PacketFilter.Contracts

open Hardware Software Interleaving Platform

/-! ## Rules -/

/-- The addresses that share a slot with a rule get its verdict. -/
def decided (opened : Set Address) (rule : Config) : Set Address :=
  {address |
    if addressSlot address = rule.slot then rule.action = 1
    else address ∈ opened}

theorem mem_decided_iff (opened : Set Address) (rule : Config)
    (address : Address) :
    address ∈ decided opened rule ↔
      if addressSlot address = rule.slot then rule.action = 1
      else address ∈ opened := Iff.rfl

theorem decided_decided (opened : Set Address) {earlier rule : Config}
    (sameSlot : rule.slot = earlier.slot) :
    decided (decided opened earlier) rule = decided opened rule := by
  ext address
  simp only [mem_decided_iff]
  split
  · rfl
  · next other =>
      rw [if_neg fun same => other (same.trans sameSlot.symm)]

/-- Which addresses are open, and the rule in the registers. -/
structure Rules where
  last : Config
  opened : Set Address

namespace Rules

def of (state : Platform) : Rules := ⟨state.registers, policy state⟩

/-- One register write, and the insertion of what the registers hold then. -/
def write (rules : Rules) (written : RegisterWrite) : Rules :=
  let registers := rules.last.writeRegister written
  ⟨registers, decided rules.opened registers⟩

/-- A call first rules over its IP address at the port of the rule before, with
the action of that rule, and then over its own address. -/
def update (rules : Rules) (call : Call) : Rules where
  last := call.rule
  opened := decided
    (decided rules.opened
      ⟨call.address.ip, rules.last.udpPort, rules.last.action⟩)
    call.rule

theorem foldl_write_eq (rules : Rules) (performed : List RegisterWrite) :
    performed.foldl write rules =
      ⟨performed.foldl Config.writeRegister rules.last,
        (snapshots Config.writeRegister rules.last performed).foldl decided
          rules.opened⟩ := by
  induction performed generalizing rules with
  | nil => rfl
  | cons written rest induction => exact induction (rules.write written)

theorem foldl_writes (rules : Rules) (call : Call) :
    call.writes.foldl write rules = rules.update call := by
  have sameSlot : call.rule.slot = Config.slot
      ⟨call.address.ip, call.address.port, rules.last.action⟩ := rfl
  rw [foldl_write_eq, Call.writes, Platform.foldl_writes, snapshots_writes]
  exact congrArg (Rules.mk call.rule) (decided_decided _ sameSlot)

theorem foldl_updates (rules : Rules) (calls : List Call) :
    (calls.flatMap Call.writes).foldl write rules =
      calls.foldl update rules := by
  rw [List.foldl_flatMap]
  simp only [foldl_writes]

end Rules

/-! ## What later calls leave alone -/

theorem slot_rule (call : Call) :
    call.rule.slot = addressSlot (call.address.ip, call.address.port) := rfl

/-- The call rules over the slot of the address when the registers hold `last`. -/
def Disturbs (last : Config) (call : Call) (address : Address) : Prop :=
  addressSlot address = addressSlot (call.address.ip, last.udpPort) ∨
    addressSlot address = call.rule.slot

def Undisturbed (last : Config) : List Call → Address → Prop
  | [], _ => True
  | call :: rest, address =>
      ¬ Disturbs last call address ∧ Undisturbed call.rule rest address

namespace Rules

theorem mem_update_iff (rules : Rules) (call : Call) (address : Address) :
    address ∈ (rules.update call).opened ↔
      if addressSlot address = call.rule.slot then call.action = .forward
      else if addressSlot address =
          addressSlot (call.address.ip, rules.last.udpPort) then
        rules.last.action = 1
      else address ∈ rules.opened := by
  change address ∈ decided _ call.rule ↔ _
  rw [mem_decided_iff, mem_decided_iff, call.rule_action_eq_one_iff]
  rfl

theorem mem_foldl_update_iff (rules : Rules) {later : List Call}
    {address : Address} (left : Undisturbed rules.last later address) :
    address ∈ (later.foldl update rules).opened ↔ address ∈ rules.opened := by
  induction later generalizing rules with
  | nil => rfl
  | cons call rest induction =>
      rcases not_or.mp left.1 with ⟨notFirst, notOwn⟩
      rw [List.foldl_cons, induction (rules.update call) left.2,
        mem_update_iff, if_neg notOwn, if_neg notFirst]

end Rules

/-! ## Refinement -/

theorem table_paced (start : Platform) {performed : List RegisterWrite}
    (schedule : Schedule performed)
    (paced : Paced Option.isNone schedule.trace) :
    (platform.run start schedule.trace).device.statics.hashTable.table =
      (snapshots Config.writeRegister start.registers performed).foldl
        (DirectMapped.install Config.slot fun config =>
          config.action.setWidth 32)
        start.device.statics.hashTable.table := by
  funext slot
  have followed := paced.latest_readings Config.writeRegister start.registers
    (fun config => decide (config.slot = slot))
  rw [schedule.performs] at followed
  rw [table_run, insertions, followed, DirectMapped.foldl_install]

def openedBy (table : Fin hashTableSize → BitVec 32) : Set Address :=
  {address | table (addressSlot address) = 1}

theorem decided_openedBy (table : Fin hashTableSize → BitVec 32)
    (config : Config) :
    decided (openedBy table) config =
      openedBy (DirectMapped.install Config.slot
        (fun config => config.action.setWidth 32) table config) := by
  ext address
  change _ ↔ DirectMapped.install Config.slot
    (fun config : Config => config.action.setWidth 32) table config
      (addressSlot address) = 1
  rw [mem_decided_iff, DirectMapped.install_apply]
  by_cases same : addressSlot address = config.slot
  · rw [if_pos same, if_pos same.symm]
    exact (setWidth_action_eq_one_iff config.action).symm
  · rw [if_neg same, if_neg (Ne.symm same)]
    rfl

theorem run_paced (start : Platform) {performed : List RegisterWrite}
    (schedule : Schedule performed)
    (paced : Paced Option.isNone schedule.trace) :
    Rules.of (platform.run start schedule.trace) =
      performed.foldl Rules.write (Rules.of start) := by
  have registers : (platform.run start schedule.trace).registers =
      performed.foldl Config.writeRegister start.registers := by
    rw [run_eq, schedule.performs]
  have opened : policy (platform.run start schedule.trace) =
      (snapshots Config.writeRegister start.registers performed).foldl decided
        (policy start) := by
    have table := congrArg openedBy (table_paced start schedule paced)
    rw [← List.foldl_hom openedBy decided_openedBy] at table
    exact table
  rw [Rules.foldl_write_eq, Rules.of, registers, opened]
  rfl

/-- Calls of `update_rule`, whatever they open or close, refine the rules from the
first write on. -/
theorem updates_refine (start : Platform) (calls : List Call)
    (schedule : Schedule (calls.flatMap Call.writes))
    (paced : Paced Option.isNone schedule.trace) :
    Rules.of (platform.run start schedule.trace) =
      calls.foldl Rules.update (Rules.of start) := by
  rw [run_paced start schedule paced, Rules.foldl_updates]

theorem updates_refine_sample :
    Rules.of (platform.run powerUp
        (idleAfterEach (sampleCalls.flatMap Call.writes)).trace) =
      sampleCalls.foldl Rules.update (Rules.of powerUp) :=
  updates_refine powerUp sampleCalls (idleAfterEach _) (paced_idleAfterEach _)

section Calls

variable (start : Platform) {calls : List Call}
  (schedule : Schedule (calls.flatMap Call.writes))
  (paced : Paced Option.isNone schedule.trace)
include paced

theorem mem_policy_paced_iff (address : Address) :
    address ∈ policy (platform.run start schedule.trace) ↔
      address ∈ (calls.foldl Rules.update (Rules.of start)).opened := by
  rw [← Rules.foldl_updates, ← run_paced start schedule paced]
  rfl

/-- A call decides over the addresses of its slot until one of the calls behind
it rules over that slot as well. -/
theorem verdict_until_disturbed {earlier later : List Call} {call : Call}
    (isCalls : calls = earlier ++ call :: later) {address : Address}
    (sameSlot : addressSlot address = call.rule.slot)
    (left : Undisturbed call.rule later address) :
    address ∈ policy (platform.run start schedule.trace) ↔
      call.action = .forward := by
  rw [mem_policy_paced_iff start schedule paced, isCalls, List.foldl_append,
    List.foldl_cons, Rules.mem_foldl_update_iff _ left, Rules.mem_update_iff,
    if_pos sameSlot]

end Calls

def closingCalls : List Call :=
  [⟨firstAddress, .forward⟩, ⟨secondAddress, .drop⟩]

/-- 192.168.2.1:8500 stays open when 192.168.2.95:8501 is closed. -/
theorem verdict_until_disturbed_sample :
    (firstAddress.ip, firstAddress.port) ∈ policy (platform.run powerUp
      (idleAfterEach (closingCalls.flatMap Call.writes)).trace) :=
  (verdict_until_disturbed powerUp
    (idleAfterEach (closingCalls.flatMap Call.writes)) (paced_idleAfterEach _)
    (show closingCalls = [] ++ ⟨firstAddress, .forward⟩ ::
      [⟨secondAddress, .drop⟩] from rfl) (slot_rule _).symm
    ⟨by rw [Disturbs]; decide +kernel, trivial⟩).mpr rfl

section Calls

variable (start : Platform) {calls : List Call}
  (schedule : Schedule (calls.flatMap Call.writes))
  (paced : Paced Option.isNone schedule.trace)
include paced

/-- A call that closes an address opens the one that has its IP address and the
port that was opened before, unless both share a slot. -/
theorem drop_opens {earlier : List Call} {opening closing : ValidAddress}
    (isCalls : calls = earlier ++ [⟨opening, .forward⟩, ⟨closing, .drop⟩]) :
    (closing.ip, opening.port) ∈ policy (platform.run start schedule.trace) ↔
      addressSlot (closing.ip, opening.port) ≠
        addressSlot (closing.ip, closing.port) := by
  rw [mem_policy_paced_iff start schedule paced, isCalls, List.foldl_append,
    List.foldl_cons, List.foldl_cons, List.foldl_nil, Rules.mem_update_iff]
  generalize earlier.foldl Rules.update (Rules.of start) = rules
  -- When the IP address is written, the registers hold the port and the action
  -- of the call before.
  have isMixed : addressSlot (closing.ip, opening.port) = addressSlot
      (closing.ip, (rules.update ⟨opening, .forward⟩).last.udpPort) := rfl
  rw [← slot_rule ⟨closing, .drop⟩]
  by_cases sameSlot : addressSlot (closing.ip, opening.port) =
      (Call.rule ⟨closing, .drop⟩).slot
  · rw [if_pos sameSlot]
    exact iff_of_false (fun isForward => by cases isForward)
      fun other => other sameSlot
  · rw [if_neg sameSlot, if_pos isMixed]
    exact iff_of_true rfl sameSlot

end Calls

/-- 192.168.2.95:8500 is open, which no call was made for. -/
theorem drop_opens_sample :
    (secondAddress.ip, firstAddress.port) ∈ policy (platform.run powerUp
      (idleAfterEach (closingCalls.flatMap Call.writes)).trace) :=
  (drop_opens powerUp (idleAfterEach (closingCalls.flatMap Call.writes))
    (paced_idleAfterEach _) (show closingCalls = [] ++
      [⟨firstAddress, .forward⟩, ⟨secondAddress, .drop⟩] from rfl)).mpr
    (by decide +kernel)

end PacketFilter.Contracts
