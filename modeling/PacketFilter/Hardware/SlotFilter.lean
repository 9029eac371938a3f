import PacketFilter.Foundation.FrameFilter
import PacketFilter.Hardware.ProcessPacket

/-! # The device as a frame filter

Idle invocations are rules, phits are items and packets are frames. The device
implements the frame filter whose slots are those of the hash table.
-/

namespace PacketFilter.Hardware

open ByteLanes

/-- The key in the bytes of a first phit: the destination address and port of
an IPv4 packet that carries UDP. -/
def firstPhitKey (phit : Axis250) : Option (BitVec 32 × BitVec 16) :=
  if lane phit.data 12 = 0x08 ∧ lane phit.data 13 = 0x00 ∧
      lane phit.data 23 = 17 then
    some (phit.data.extractLsb 271 240, phit.data.extractLsb 303 288)
  else none

theorem isIpv4_deserialize_zero (header : EthernetHeader)
    (data : BitVec 512) :
    (header.deserialize data 0).isIpv4 =
      decide (lane data 12 = 0x08 ∧ lane data 13 = 0x00) := by
  have swapped : bswap16 EthernetHeader.ipv4 = 0x00#8 ++ 0x08#8 := by decide
  have lanes : (header.deserialize data 0).ethType =
      lane data 13 ++ lane data 12 := extract_two data 12
  rw [EthernetHeader.isIpv4, swapped, lanes, Bool.beq_eq_decide_eq,
    decide_eq_decide, append_inj]
  exact and_comm

theorem isUdp_deserialize_zero (header : IPv4Header) (data : BitVec 512) :
    (header.deserialize data 0).isUdp = decide (lane data 23 = 17) :=
  Bool.beq_eq_decide_eq _ _

theorem targetAddress_deserialize_zero (packet : NetworkPacket)
    (phit : Axis250) :
    (packet.deserialize phit.data 0).targetAddress = firstPhitKey phit := by
  simp only [NetworkPacket.targetAddress, NetworkPacket.deserialize,
    isIpv4_deserialize_zero, isUdp_deserialize_zero, ← Bool.decide_and,
    decide_eq_true_eq, and_assoc]
  rfl

def Config.slot (config : Config) : Fin hashTableSize :=
  slotIndex config.ipv4Addr config.udpPort

theorem hardware_run_table (device : Device) (run : List Invocation) :
    (hardware.run device run).statics.hashTable.table =
      (idleConfigs run).foldl
        (DirectMapped.install Config.slot fun config =>
          config.action.setWidth 32)
        device.statics.hashTable.table := by
  induction run generalizing device with
  | nil => rfl
  | cons invocation rest induction =>
      rcases invocation with ⟨config, sAxis⟩
      cases sAxis with
      | none => exact induction _
      | some phit =>
          rw [Mealy.run, induction, hardware_step_phit]
          rfl

def slotFilter :
    FrameFilter Invocation Config Axis250 (Fin hashTableSize) where
  view invocation :=
    match invocation.sAxis with
    | none => .inl invocation.config
    | some phit => .inr phit
  isLast phit := phit.last
  slotOf := Config.slot
  opens config := config.action == 1
  slotOfFirst phit :=
    (firstPhitKey phit).map fun (ip, port) => slotIndex ip port

@[simp] theorem slotFilter_slotOfFirst (phit : Axis250) :
    slotFilter.slotOfFirst phit =
      (firstPhitKey phit).map fun (ip, port) => slotIndex ip port := rfl

@[simp] theorem slotFilter_isLast (phit : Axis250) :
    slotFilter.isLast phit = phit.last := rfl

/-! ## Refinement -/

/-- The static variables in terms of the rules seen and of the phits of the
packet under way. -/
structure Represents (device : Device)
    (state : FrameFilter.State Axis250 (Fin hashTableSize)) : Prop where
  table : ∀ slot, state.isOpen slot =
    (device.statics.hashTable.table slot == 1)
  phitIdx : device.statics.phitIdx = BitVec.ofNat 32 state.current.length
  network : ∀ first rest, state.current = first :: rest →
    device.statics.network = NetworkPacket.initial.deserialize first.data 0

theorem Represents.initial :
    Represents Device.initial FrameFilter.initial where
  table := fun _ => rfl
  phitIdx := rfl
  network := by
    intro first rest current
    cases current

theorem setWidth_action_eq_one (action : BitVec 8) :
    (action.setWidth 32 == 1) = (action == 1) := by
  rw [Bool.beq_eq_decide_eq, Bool.beq_eq_decide_eq, decide_eq_decide]
  constructor
  · intro equal
    have narrowed := congrArg (BitVec.setWidth 8) equal
    simpa using narrowed
  · rintro rfl
    rfl

theorem Represents.networkAt {device : Device}
    {state : FrameFilter.State Axis250 (Fin hashTableSize)}
    (represents : Represents device state) (phit : Axis250)
    (inRange : state.current.length < 2 ^ 31) :
    device.statics.networkAt phit =
      NetworkPacket.initial.deserialize (state.current.headD phit).data 0 := by
  rw [Statics.networkAt, represents.phitIdx]
  cases current : state.current with
  | nil => exact NetworkPacket.deserialize_zero _ _ phit.data
  | cons first rest =>
      have later : BitVec.ofNat 32 (first :: rest).length ≠ 0 := by
        rw [current] at inRange
        intro wrapped
        have value := congrArg BitVec.toNat wrapped
        simp only [BitVec.toNat_ofNat, List.length_cons] at value inRange
        rw [Nat.mod_eq_of_lt (by omega)] at value
        simp at value
      rw [NetworkPacket.deserialize_of_ne_zero _ _ later]
      exact represents.network first rest current

theorem Represents.actionAt {device : Device}
    {state : FrameFilter.State Axis250 (Fin hashTableSize)}
    (represents : Represents device state) (phit : Axis250)
    (inRange : state.current.length < 2 ^ 31) :
    (device.statics.actionAt phit == 1) =
      (slotFilter.slotOfFirst (state.current.headD phit)).any
        state.isOpen := by
  rw [Statics.actionAt, represents.networkAt phit inRange, tableAction,
    targetAddress_deserialize_zero, slotFilter_slotOfFirst]
  cases firstPhitKey (state.current.headD phit) with
  | none => rfl
  | some key => exact (represents.table (slotIndex key.1 key.2)).symm

theorem Represents.step_idle {device : Device}
    {state : FrameFilter.State Axis250 (Fin hashTableSize)}
    (represents : Represents device state) (config : Config) :
    Represents (hardware.step device ⟨config, none⟩).1
      (slotFilter.machine.step state ⟨config, none⟩).1 := by
  rw [hardware_step_idle, slotFilter.machine_step_rule state rfl]
  refine ⟨?_, represents.phitIdx, represents.network⟩
  intro slot
  change DirectMapped.install slotFilter.slotOf slotFilter.opens state.isOpen
      config slot =
    ((device.statics.hashTable.insert config.ipv4Addr config.udpPort
      (config.action.setWidth 32)).table slot == 1)
  rw [DirectMapped.install_apply, ToeplitzHash.insert_table,
    represents.table slot]
  change (if config.slot = slot then config.action == 1 else _) =
    ((if config.slot = slot then config.action.setWidth 32 else _) == 1)
  split
  · exact (setWidth_action_eq_one config.action).symm
  · rfl

theorem Represents.step_phit {device : Device}
    {state : FrameFilter.State Axis250 (Fin hashTableSize)}
    (represents : Represents device state) (config : Config) (phit : Axis250)
    (inRange : state.current.length < 2 ^ 31) :
    Represents (hardware.step device ⟨config, some phit⟩).1
      (slotFilter.machine.step state ⟨config, some phit⟩).1 := by
  rw [hardware_step_phit, slotFilter.machine_step_item state rfl]
  refine ⟨represents.table, ?_, ?_⟩
  · cases marked : phit.last with
    | true => simp [marked]
    | false => simp [marked, represents.phitIdx, BitVec.ofNat_add]
  · intro first rest current
    cases marked : phit.last with
    | true => simp [marked] at current
    | false =>
        rw [represents.networkAt phit inRange]
        have isHead : state.current.headD phit = first := by
          have appended : state.current ++ [phit] = first :: rest := by
            simpa [marked] using current
          cases held : state.current <;> simp_all
        rw [isHead]

/-- As long as no packet is longer than the index can count, the device and
the frame filter run in step. -/
def implementation :
    FrameFilter.Implementation slotFilter hardware Device.initial (2 ^ 31) where
  Related := Represents
  related_start := Represents.initial
  step := by
    intro device state ⟨config, sAxis⟩ represents inRange
    cases sAxis with
    | none =>
        refine ⟨represents.step_idle config, ?_⟩
        rw [hardware_step_idle, slotFilter.machine_step_rule state rfl]
    | some phit =>
        have within := inRange phit rfl
        refine ⟨represents.step_phit config phit within, ?_⟩
        rw [hardware_step_phit, slotFilter.machine_step_item state rfl,
          ← represents.actionAt phit within]
        simp

end PacketFilter.Hardware
