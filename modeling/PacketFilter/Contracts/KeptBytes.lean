import PacketFilter.Contracts.Datapath

/-! # Kept bytes

The keep bits of a phit say which of its bytes belong to the packet. The filter
does not look at them.
-/

namespace PacketFilter.Contracts

open Hardware ByteLanes

def Kept (phit : Axis250) (byte : Nat) : Prop := phit.keep.getLsbD byte = true

instance (phit : Axis250) (byte : Nat) : Decidable (Kept phit byte) :=
  inferInstanceAs (Decidable (_ = true))

/-- Two phits that differ at most in bytes that do not belong to the packet. -/
structure SameKept (phit phit' : Axis250) : Prop where
  keep : phit.keep = phit'.keep
  user : phit.user = phit'.user
  last : phit.last = phit'.last
  data : ∀ byte, Kept phit byte → lane phit.data byte = lane phit'.data byte

inductive SameInvocation : Invocation → Invocation → Prop where
  | idle (config : Config) : SameInvocation ⟨config, none⟩ ⟨config, none⟩
  | phit (config config' : Config) {phit phit' : Axis250} :
      SameKept phit phit' →
      SameInvocation ⟨config, some phit⟩ ⟨config', some phit'⟩

def protocolBytes : List (Nat × BitVec 8) := [(12, 0x08), (13, 0x00), (23, 17)]

def keyBytes : List Nat := [12, 13, 23, 30, 31, 32, 33, 36, 37]

/-- The bytes that belong to the packet settle its key: they include all bytes
of the key, or one that shows that the packet takes no part in the filtering. -/
def Decisive (phit : Axis250) : Prop :=
  (∃ shown ∈ protocolBytes,
      Kept phit shown.1 ∧ lane phit.data shown.1 ≠ shown.2) ∨
    ∀ byte ∈ keyBytes, Kept phit byte

instance (phit : Axis250) : Decidable (Decisive phit) :=
  inferInstanceAs (Decidable (_ ∨ _))

theorem firstPhitKey_eq_none_iff (phit : Axis250) :
    firstPhitKey phit = none ↔
      ∃ shown ∈ protocolBytes, lane phit.data shown.1 ≠ shown.2 := by
  have otherwise : (∃ shown ∈ protocolBytes, lane phit.data shown.1 ≠ shown.2) ↔
      ¬ (lane phit.data 12 = 0x08 ∧ lane phit.data 13 = 0x00 ∧
        lane phit.data 23 = 17) := by
    simp only [protocolBytes, List.exists_mem_cons_iff, List.not_mem_nil,
      false_and, exists_false, or_false, not_and_or, ne_eq]
  rw [otherwise, firstPhitKey]
  split
  · next shown => exact ⟨nofun, fun hidden => absurd shown hidden⟩
  · next hidden => exact ⟨fun _ => hidden, fun _ => rfl⟩

theorem firstPhitKey_lanes (phit : Axis250) :
    firstPhitKey phit =
      if lane phit.data 12 = 0x08 ∧ lane phit.data 13 = 0x00 ∧
          lane phit.data 23 = 17 then
        some (lane phit.data 33 ++ lane phit.data 32 ++ lane phit.data 31 ++
            lane phit.data 30,
          lane phit.data 37 ++ lane phit.data 36)
      else none := by
  have destIp : phit.data.extractLsb 271 240 =
      lane phit.data 33 ++ lane phit.data 32 ++ lane phit.data 31 ++
        lane phit.data 30 := extract_four phit.data 30
  have destPort : phit.data.extractLsb 303 288 =
      lane phit.data 37 ++ lane phit.data 36 := extract_two phit.data 36
  rw [firstPhitKey, destIp, destPort]

/-- Phits that agree in the bytes of the packet have the same key when these
bytes settle it. -/
theorem SameKept.firstPhitKey_eq {phit phit' : Axis250}
    (same : SameKept phit phit') (decisive : Decisive phit) :
    firstPhitKey phit = firstPhitKey phit' := by
  rcases decisive with ⟨shown, member, kept, differs⟩ | kept
  · have other : lane phit'.data shown.1 ≠ shown.2 := by
      rw [← same.data shown.1 kept]
      exact differs
    rw [(firstPhitKey_eq_none_iff phit).mpr ⟨shown, member, differs⟩,
      (firstPhitKey_eq_none_iff phit').mpr ⟨shown, member, other⟩]
  · have agree : ∀ byte ∈ keyBytes,
        lane phit.data byte = lane phit'.data byte :=
      fun byte member => same.data byte (kept byte member)
    simp only [keyBytes, List.forall_mem_cons] at agree
    rcases agree with ⟨at12, at13, at23, at30, at31, at32, at33, at36, at37, -⟩
    rw [firstPhitKey_lanes, firstPhitKey_lanes, at12, at13, at23, at30, at31,
      at32, at33, at36, at37]

/-! ## Two runs -/

/-- The devices agree in all but header fields that no verdict depends on. -/
structure Alike (device device' : Device) : Prop where
  hashTable : device.statics.hashTable = device'.statics.hashTable
  localStats : device.statics.localStats = device'.statics.localStats
  phitIdx : device.statics.phitIdx = device'.statics.phitIdx
  stats : device.stats = device'.stats
  key : device.statics.phitIdx ≠ 0 →
    device.statics.network.targetAddress =
      device'.statics.network.targetAddress

theorem Alike.refl (device : Device) : Alike device device :=
  ⟨rfl, rfl, rfl, rfl, fun _ => rfl⟩

def StartsDecisive (device : Device) (invocation : Invocation) : Prop :=
  ∀ phit ∈ invocation.sAxis, device.statics.phitIdx = 0 → Decisive phit

theorem Alike.networkAt {device device' : Device} (alike : Alike device device')
    {phit phit' : Axis250} (same : SameKept phit phit')
    (decisive : device.statics.phitIdx = 0 → Decisive phit) :
    (device.statics.networkAt phit).targetAddress =
      (device'.statics.networkAt phit').targetAddress := by
  rw [Statics.networkAt, Statics.networkAt, ← alike.phitIdx]
  by_cases starts : device.statics.phitIdx = 0
  · rw [starts, targetAddress_deserialize_zero, targetAddress_deserialize_zero,
      same.firstPhitKey_eq (decisive starts)]
  · rw [NetworkPacket.deserialize_of_ne_zero _ _ starts,
      NetworkPacket.deserialize_of_ne_zero _ _ starts, alike.key starts]

theorem Alike.actionAt {device device' : Device} (alike : Alike device device')
    {phit phit' : Axis250} (same : SameKept phit phit')
    (decisive : device.statics.phitIdx = 0 → Decisive phit) :
    device.statics.actionAt phit = device'.statics.actionAt phit' := by
  rw [Statics.actionAt, Statics.actionAt, tableAction, tableAction,
    alike.networkAt same decisive, alike.hashTable]

/-- One invocation keeps the devices alike and forwards in both runs or in
none. -/
theorem Alike.step {device device' : Device} (alike : Alike device device')
    {invocation invocation' : Invocation}
    (same : SameInvocation invocation invocation')
    (decisive : StartsDecisive device invocation) :
    Alike (hardware.step device invocation).1
        (hardware.step device' invocation').1 ∧
      List.Forall₂ SameKept (hardware.step device invocation).2
        (hardware.step device' invocation').2 := by
  cases same with
  | idle config =>
      rw [hardware_step_idle, hardware_step_idle]
      refine ⟨⟨?_, alike.localStats, alike.phitIdx, alike.localStats,
        alike.key⟩, .nil⟩
      rw [alike.hashTable]
  | @phit config config' phit phit' same =>
      have starts := decisive phit rfl
      have key := alike.networkAt same starts
      rw [hardware_step_phit, hardware_step_phit, ← alike.actionAt same starts,
        ← same.last, ← alike.localStats, ← alike.phitIdx]
      refine ⟨⟨alike.hashTable, rfl, rfl, alike.stats, fun _ => key⟩, ?_⟩
      by_cases forwards : device.statics.actionAt phit = 1
      · rw [if_pos forwards, if_pos forwards]
        exact .cons same .nil
      · rw [if_neg forwards, if_neg forwards]
        exact .nil

theorem exists_packet_of_phitIdx (run : DefinedRun)
    {before later : List Invocation} {config : Config} {phit : Axis250}
    (split : run.invocations = before ++ ⟨config, some phit⟩ :: later)
    (starts : (after before).statics.phitIdx = 0) :
    ∃ packet ∈ packets run.invocations,
      packet.head? = some ⟨before, ⟨config, some phit⟩, phit⟩ := by
  rcases slotFilter.exists_frame_of_input split rfl with ⟨packet, member, leads⟩
  have inPacket := leads.subset (List.mem_append_right _ List.mem_cons_self)
  rcases implementation.related_of_mem_frames run.inRange member inPacket
    with ⟨represents, short⟩
  have counted := Represents.phitIdx represents
  rw [← after, starts, FrameFilter.machine_run,
    FrameFilter.items_eq_map_arrivals, Framing.openFrame_map] at counted
  rw [FrameFilter.machine_run, FrameFilter.items_eq_map_arrivals,
    Framing.openFrame_map] at short
  have length := congrArg BitVec.toNat counted
  rw [BitVec.toNat_ofNat, Nat.mod_eq_of_lt (by omega)] at length
  have nothingOpen := List.map_eq_nil_iff.mp (List.eq_nil_of_length_eq_zero
    length.symm)
  rw [nothingOpen] at leads
  rcases leads with ⟨rest, isPacket⟩
  exact ⟨packet, member, by rw [← isPacket]; rfl⟩

theorem startsDecisive_of_packets (run : DefinedRun)
    (decisive : ∀ packet ∈ packets run.invocations,
      ∀ first ∈ packet.head?, Decisive first.item) :
    hardware.Guarded StartsDecisive Device.initial run.invocations := by
  apply hardware.guarded_of_splits
  intro before invocation later split phit waits starts
  rcases invocation with ⟨config, sAxis⟩
  rcases Option.mem_def.mp waits with rfl
  rcases exists_packet_of_phitIdx run split starts with ⟨packet, member, isFirst⟩
  exact decisive packet member _ isFirst

/-- When the bytes that belong to each packet settle its key, what else is on
the bus changes neither what is forwarded nor what is counted. -/
theorem kept_bytes_decide (run : DefinedRun) (invocations : List Invocation)
    (same : List.Forall₂ SameInvocation run.invocations invocations)
    (decisive : ∀ packet ∈ packets run.invocations,
      ∀ first ∈ packet.head?, Decisive first.item) :
    List.Forall₂ (List.Forall₂ SameKept)
        (hardware.outputs Device.initial run.invocations)
        (hardware.outputs Device.initial invocations) ∧
      (after run.invocations).statics.localStats =
        (after invocations).statics.localStats ∧
      (after run.invocations).stats = (after invocations).stats := by
  have stepped := hardware.lockstep hardware Alike SameInvocation
    (List.Forall₂ SameKept) StartsDecisive
    (fun _ _ _ _ alike same decisive => alike.step same decisive)
    (Alike.refl _) same (startsDecisive_of_packets run decisive)
  exact ⟨stepped.2, stepped.1.localStats, stepped.1.stats⟩

def paddedPhit (length : Nat) (header : BitVec 336) (padding : BitVec 176) :
    Axis250 where
  data := padding ++ header
  keep := BitVec.ofNat 64 (2 ^ length - 1)
  user := 0
  last := true

def udpHeader (protocol : BitVec 8) : BitVec 336 :=
  0#32 ++ 0x3421#16 ++ 0#16 ++ 0x0102A8C0#32 ++ 0#48 ++ protocol ++ 0#72 ++
    0x0008#16 ++ 0#96

def configuredRun (phit : Axis250) : List Invocation :=
  [⟨⟨0x0102A8C0, 0x3421, 1⟩, none⟩, ⟨⟨0x0102A8C0, 0x3421, 1⟩, some phit⟩]

theorem sameKept_of_lanes {phit phit' : Axis250}
    (keep : phit.keep = phit'.keep) (user : phit.user = phit'.user)
    (last : phit.last = phit'.last)
    (data : ∀ byte : Fin 64, Kept phit byte →
      lane phit.data byte = lane phit'.data byte) :
    SameKept phit phit' :=
  ⟨keep, user, last, fun byte kept =>
    data ⟨byte, BitVec.lt_of_getLsbD kept⟩ kept⟩

theorem configuredRun_same {phit phit' : Axis250} (same : SameKept phit phit') :
    List.Forall₂ SameInvocation (configuredRun phit) (configuredRun phit') :=
  .cons (.idle _) (.cons (.phit _ _ same) .nil)

theorem kept_bytes_decide_sample :
    (after (configuredRun (paddedPhit 42 (udpHeader 17) 0))).statics.localStats =
      (after (configuredRun (paddedPhit 42 (udpHeader 17) 1))).statics.localStats :=
  (kept_bytes_decide
    ⟨configuredRun (paddedPhit 42 (udpHeader 17) 0), by decide +kernel⟩ _
    (configuredRun_same (sameKept_of_lanes rfl rfl rfl (by decide +kernel)))
    (by decide +kernel)).2.1

/-- A frame of 14 bytes is forwarded or dropped by what else is on the bus. -/
theorem not_kept_bytes_decide :
    ¬ ∀ run run' : DefinedRun,
      List.Forall₂ SameInvocation run.invocations run'.invocations →
      List.Forall₂ (List.Forall₂ SameKept)
          (hardware.outputs Device.initial run.invocations)
          (hardware.outputs Device.initial run'.invocations) ∧
        (after run.invocations).statics.localStats =
          (after run'.invocations).statics.localStats ∧
        (after run.invocations).stats = (after run'.invocations).stats := by
  intro decides
  have counted := (decides
    ⟨configuredRun (paddedPhit 14 (udpHeader 17) 0), by decide +kernel⟩
    ⟨configuredRun (paddedPhit 14 (udpHeader 6) 0), by decide +kernel⟩
    (configuredRun_same
      (sameKept_of_lanes rfl rfl rfl (by decide +kernel)))).2.1
  revert counted
  decide +kernel

end PacketFilter.Contracts
