import PacketFilter.Foundation.Interleaving
import PacketFilter.Hardware.SlotFilter
import PacketFilter.Software.UpdateRule

/-! # Software and hardware

The software writes the configuration registers one at a time while the
hardware is invoked. Every invocation reads the registers as they are at that
moment.
-/

namespace PacketFilter

open Hardware Software Interleaving

/-- A register keeps as many low bits of a written word as it is wide. -/
def Hardware.Config.writeRegister (registers : Config)
    (written : RegisterWrite) : Config :=
  if written.address = baseAddr + ipv4AddrReg then
    { registers with ipv4Addr := written.value }
  else if written.address = baseAddr + udpPortReg then
    { registers with udpPort := written.value.setWidth 16 }
  else if written.address = baseAddr + ruleActionReg then
    { registers with action := written.value.setWidth 8 }
  else registers

structure Platform where
  registers : Config
  device : Device

namespace Platform

def powerUp : Platform where
  registers := ⟨0, 0, 0⟩
  device := .initial

abbrev Event := Interleaving.Event RegisterWrite (Option Axis250)

abbrev Trace := Interleaving.Trace RegisterWrite (Option Axis250)

end Platform

/-- An event is one register write or one invocation, with the phit that waits
for it. -/
def platform : Mealy Platform Platform.Event (List Axis250) where
  step state event :=
    match event with
    | .write written =>
        ({ state with registers := state.registers.writeRegister written }, [])
    | .act sAxis =>
        let result := hardware.step state.device ⟨state.registers, sAxis⟩
        ({ state with device := result.1 }, result.2)

namespace Platform

def invocations (registers : Config) (trace : Trace) : List Invocation :=
  (observed Config.writeRegister registers trace).map fun (config, sAxis) =>
    ⟨config, sAxis⟩

def insertions (registers : Config) (trace : Trace) : List Config :=
  readings Config.writeRegister Option.isNone registers trace

theorem idleConfigs_invocations (registers : Config) (trace : Trace) :
    idleConfigs (invocations registers trace) = insertions registers trace := by
  rw [idleConfigs, invocations, List.filterMap_map]
  rfl

/-- The registers follow the software alone, and the device runs on the
invocations of the trace. -/
theorem run_eq (start : Platform) (trace : Trace) :
    platform.run start trace =
      { registers := (writes trace).foldl Config.writeRegister start.registers
        device :=
          hardware.run start.device (invocations start.registers trace) } := by
  induction trace generalizing start with
  | nil => rfl
  | cons event rest induction =>
      rw [Mealy.run, induction]
      cases event <;> rfl

theorem table_run (start : Platform) (trace : Trace) (slot : Fin hashTableSize) :
    (platform.run start trace).device.statics.hashTable.table slot =
      ((DirectMapped.latest (fun config => decide (config.slot = slot))
          (insertions start.registers trace)).map
        fun config => config.action.setWidth 32).getD
        (start.device.statics.hashTable.table slot) := by
  rw [run_eq, hardware_run_table, idleConfigs_invocations,
    DirectMapped.foldl_install]

structure Insertion (trace : Trace) where
  before : Trace
  after : Trace
  split : trace = before ++ .act none :: after

theorem Insertion.reached {trace : Trace} (insertion : Insertion trace)
    {further : Trace} (within : further <+: insertion.after) :
    insertion.before ++ .act none :: further <+: trace := by
  rcases within with ⟨rest, isAfter⟩
  refine ⟨rest, ?_⟩
  have isTrace := insertion.split
  rw [← isAfter] at isTrace
  rw [List.append_assoc, List.cons_append]
  exact isTrace.symm

theorem Insertion.writes_split {trace : Trace} (insertion : Insertion trace) :
    writes trace = writes insertion.before ++ writes insertion.after := by
  calc
    writes trace = writes (insertion.before ++ .act none :: insertion.after) :=
      congrArg writes insertion.split
    _ = _ := by rw [writes_append, writes_act]

def Insertion.rule {trace : Trace} (insertion : Insertion trace)
    (start : Platform) : Config :=
  (platform.run start insertion.before).registers

theorem Insertion.rule_eq {trace : Trace} (insertion : Insertion trace)
    (start : Platform) :
    insertion.rule start =
      (writes insertion.before).foldl Config.writeRegister start.registers := by
  rw [rule, run_eq]

theorem insertions_split (registers : Config) (before after : Trace) :
    insertions registers (before ++ .act none :: after) =
      insertions registers before ++
        (writes before).foldl Config.writeRegister registers ::
          insertions ((writes before).foldl Config.writeRegister registers)
            after := by
  have idle : (none : Option Axis250).isNone = true := rfl
  exact readings_split Config.writeRegister registers before after idle

theorem Insertion.rule_mem {trace : Trace} (insertion : Insertion trace)
    (start : Platform) :
    insertion.rule start ∈ insertions start.registers trace := by
  have found := insertions_split start.registers insertion.before insertion.after
  rw [← insertion.split] at found
  rw [found, insertion.rule_eq]
  exact List.mem_append_right _ List.mem_cons_self

theorem Insertion.inserted {trace : Trace} (insertion : Insertion trace)
    (start : Platform) :
    (platform.run start (insertion.before ++ [.act none])).device.statics.hashTable
      = (platform.run start insertion.before).device.statics.hashTable.insert
        (insertion.rule start).ipv4Addr (insertion.rule start).udpPort
        ((insertion.rule start).action.setWidth 32) := by
  rw [Mealy.run_concat]
  rfl

/-! ## Rules in the registers -/

def actionRegister (action : RuleAction) : BitVec 8 := action.value.setWidth 8

theorem writeRegister_ipv4Addr (registers : Config) (ip : BitVec 32) :
    registers.writeRegister (mmioRegWrite ipv4AddrReg ip) =
      { registers with ipv4Addr := ip } := by
  rw [Config.writeRegister, mmioRegWrite, if_pos rfl]

theorem registers_distinct :
    baseAddr + udpPortReg ≠ baseAddr + ipv4AddrReg ∧
      baseAddr + ruleActionReg ≠ baseAddr + ipv4AddrReg ∧
      baseAddr + ruleActionReg ≠ baseAddr + udpPortReg := by decide

theorem writeRegister_udpPort (registers : Config) (port : BitVec 16) :
    registers.writeRegister (mmioRegWrite udpPortReg (port.setWidth 32)) =
      { registers with udpPort := port } := by
  rw [Config.writeRegister, mmioRegWrite, if_neg registers_distinct.1,
    if_pos rfl]
  simp

theorem writeRegister_action (registers : Config) (action : RuleAction) :
    registers.writeRegister (mmioRegWrite ruleActionReg
        ((action.value.setWidth 8).setWidth 32)) =
      { registers with action := actionRegister action } := by
  rw [Config.writeRegister, mmioRegWrite, if_neg registers_distinct.2.1,
    if_neg registers_distinct.2.2, if_pos rfl]
  simp [actionRegister]

def rule (address : ValidAddress) (action : RuleAction) : Config :=
  ⟨address.ip, address.port, actionRegister action⟩

theorem snapshots_writes (registers : Config) (address : ValidAddress)
    (action : RuleAction) :
    snapshots Config.writeRegister registers (address.writes action) =
      [⟨address.ip, registers.udpPort, registers.action⟩,
        ⟨address.ip, address.port, registers.action⟩,
        rule address action] := by
  rw [ValidAddress.writes, ruleWrites_eq]
  simp only [snapshots, writeRegister_ipv4Addr, writeRegister_udpPort,
    writeRegister_action, rule]

theorem foldl_take_one (registers : Config) (address : ValidAddress)
    (action : RuleAction) :
    ((address.writes action).take 1).foldl Config.writeRegister registers =
      ⟨address.ip, registers.udpPort, registers.action⟩ := by
  rw [ValidAddress.writes, ruleWrites_eq]
  exact writeRegister_ipv4Addr registers address.ip

theorem foldl_take_two (registers : Config) (address : ValidAddress)
    (action : RuleAction) :
    ((address.writes action).take 2).foldl Config.writeRegister registers =
      ⟨address.ip, address.port, registers.action⟩ := by
  rw [ValidAddress.writes, ruleWrites_eq]
  simp only [List.take_succ_cons, List.take_zero, List.foldl_cons,
    List.foldl_nil, writeRegister_ipv4Addr, writeRegister_udpPort]

theorem foldl_writes (registers : Config) (address : ValidAddress)
    (action : RuleAction) :
    (address.writes action).foldl Config.writeRegister registers =
      rule address action := by
  rw [ValidAddress.writes, ruleWrites_eq]
  simp only [List.foldl_cons, List.foldl_nil, writeRegister_ipv4Addr,
    writeRegister_udpPort, writeRegister_action, rule]

end Platform

end PacketFilter
