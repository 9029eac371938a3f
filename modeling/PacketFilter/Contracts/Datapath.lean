import PacketFilter.Hardware.SlotFilter

/-! # Datapath contract

What leaves the filter over a whole run, stated on the sequence of invocations
alone: which phits of which packets are written to `m_axis`.
-/

namespace PacketFilter.Contracts

open Hardware

/-! ## Vocabulary -/

def slotForwards (history : List Invocation) (slot : Fin hashTableSize) :
    Bool :=
  (DirectMapped.latest (fun config => decide (config.slot = slot))
    (idleConfigs history)).any fun config => config.action == 1

/-- Whether a phit is kept that arrives after `history` in a packet whose first
phit is `first`. -/
def keepsPhit (first : Axis250) (history : List Invocation) : Bool :=
  match firstPhitKey first with
  | some (ip, port) => slotForwards history (slotIndex ip port)
  | none => false

theorem keepsPhit_of_key {first : Axis250} {ip : BitVec 32}
    {port : BitVec 16} (addressed : firstPhitKey first = some (ip, port))
    (history : List Invocation) :
    keepsPhit first history = slotForwards history (slotIndex ip port) := by
  rw [keepsPhit, addressed]

theorem keepsPhit_of_no_key {first : Axis250}
    (unaddressed : firstPhitKey first = none) (history : List Invocation) :
    keepsPhit first history = false := by
  rw [keepsPhit, unaddressed]

/-- A consumed phit, with the invocations before the one that consumed it. -/
abbrev Arrival := FrameFilter.Arrival Invocation Axis250

def arrivals (run : List Invocation) : List Arrival := slotFilter.arrivals run

def packets (run : List Invocation) : List (List Arrival) :=
  Framing.frames (fun arrival => arrival.item.last) (arrivals run)

def completePackets (run : List Invocation) : List (List Arrival) :=
  Framing.closedFrames (fun arrival => arrival.item.last) (arrivals run)

/-- The stateless specification of what a run writes to `m_axis`. -/
def datapathSpec (run : List Invocation) : List Axis250 :=
  (packets run).flatMap fun packet =>
    match packet with
    | [] => []
    | first :: _ =>
        (packet.filter fun arrival =>
          keepsPhit first.item arrival.history).map FrameFilter.Arrival.item

/-- A run in which `phit_idx` never overflows its signed type, which a packet
of more than `2 ^ 31` phits would make it do. -/
structure DefinedRun where
  invocations : List Invocation
  inRange : ∀ packet ∈ packets invocations, packet.length ≤ 2 ^ 31

def after (history : List Invocation) : Device :=
  hardware.run Device.initial history

def Emitted (arrival : Arrival) : Prop :=
  (hardware.step (after arrival.history) arrival.input).2 = [arrival.item]

def Forwarded (packet : List Arrival) : Prop :=
  ∀ arrival ∈ packet, Emitted arrival

def Dropped (packet : List Arrival) : Prop :=
  ∀ arrival ∈ packet, ¬ Emitted arrival

instance (arrival : Arrival) : Decidable (Emitted arrival) :=
  inferInstanceAs (Decidable (_ = _))

instance (packet : List Arrival) : Decidable (Forwarded packet) :=
  inferInstanceAs (Decidable (∀ arrival ∈ packet, _))

instance (packet : List Arrival) : Decidable (Dropped packet) :=
  inferInstanceAs (Decidable (∀ arrival ∈ packet, _))

/-! ## Connection to the frame filter -/

theorem rules_eq_idleConfigs (history : List Invocation) :
    slotFilter.rules history = idleConfigs history := by
  apply List.filterMap_congr
  intro invocation _
  rcases invocation with ⟨config, sAxis⟩
  cases sAxis <;> rfl

theorem slotOpen_eq_slotForwards (history : List Invocation)
    (slot : Fin hashTableSize) :
    slotFilter.slotOpen history slot = slotForwards history slot := by
  rw [FrameFilter.slotOpen, rules_eq_idleConfigs]
  rfl

theorem keeps_eq_keepsPhit (first : Axis250) (history : List Invocation) :
    slotFilter.keeps first history = keepsPhit first history := by
  rw [FrameFilter.keeps, slotFilter_slotOfFirst, keepsPhit]
  cases firstPhitKey first with
  | none => rfl
  | some key => exact slotOpen_eq_slotForwards history _

theorem passed_eq_datapathSpec (run : List Invocation) :
    slotFilter.passed run = datapathSpec run := by
  apply List.flatMap_congr
  intro packet _
  cases packet with
  | nil => rfl
  | cons first rest =>
      simp only [Framing.flatMapFrame, keeps_eq_keepsPhit]
      rw [← List.filterMap_eq_map, List.filterMap_filter,
        List.filterMap_eq_flatMap_toList]
      apply List.flatMap_congr
      intro arrival _
      split <;> simp_all

theorem emitted_iff_keepsPhit (run : DefinedRun) {packet : List Arrival}
    (member : packet ∈ packets run.invocations) {first : Arrival}
    (isFirst : packet.head? = some first) {arrival : Arrival}
    (inPacket : arrival ∈ packet) :
    Emitted arrival ↔ keepsPhit first.item arrival.history = true := by
  have output := implementation.output_of_mem_frames run.inRange packet member
    first isFirst arrival inPacket
  rw [Emitted, after, output, keeps_eq_keepsPhit]
  split <;> simp_all

theorem emitted_iff_actionAt (history : List Invocation) (config : Config)
    (phit : Axis250) :
    Emitted ⟨history, ⟨config, some phit⟩, phit⟩ ↔
      (after history).statics.actionAt phit = 1 := by
  rw [Emitted, hardware_output_phit, ite_eq_left_iff]
  simp only [reduceCtorEq, imp_false, not_not]

/-- Every phit of a packet is filtered on the key of its first phit. -/
theorem targetAddress_of_mem_packets (run : DefinedRun)
    {packet : List Arrival} (member : packet ∈ packets run.invocations)
    {first : Arrival} (isFirst : packet.head? = some first)
    {arrival : Arrival} (inPacket : arrival ∈ packet) :
    ((after arrival.history).statics.networkAt
        arrival.item).targetAddress = firstPhitKey first.item := by
  rcases implementation.related_of_mem_frames run.inRange member inPacket
    with ⟨represents, short⟩
  have held := slotFilter.current_headD_of_mem_frames run.invocations packet
    member first isFirst arrival inPacket
  rw [after, Represents.networkAt represents arrival.item short, held,
    targetAddress_deserialize_zero]

theorem emitted_iff_lookup (run : DefinedRun) {packet : List Arrival}
    (member : packet ∈ packets run.invocations) {first : Arrival}
    (isFirst : packet.head? = some first) {ip : BitVec 32} {port : BitVec 16}
    (addressed : firstPhitKey first.item = some (ip, port))
    {arrival : Arrival} (inPacket : arrival ∈ packet) :
    Emitted arrival ↔
      (after arrival.history).statics.hashTable.lookup ip port = 1 := by
  have key := targetAddress_of_mem_packets run member isFirst inPacket
  rcases (slotFilter.found_of_mem_frames member inPacket) with ⟨shown, -⟩
  rcases arrival with ⟨history, ⟨config, sAxis⟩, phit⟩
  cases sAxis with
  | none => cases shown
  | some consumed =>
      have isPhit : consumed = phit := Sum.inr.inj shown
      subst isPhit
      rw [emitted_iff_actionAt, Statics.actionAt, tableAction, key, addressed]

/-! ## Refinement of the stateless specification -/

/-- The datapath writes exactly what the stateless specification keeps. -/
theorem datapath_refinement (run : DefinedRun) :
    writtenToMAxis run.invocations = datapathSpec run.invocations := by
  rw [writtenToMAxis, implementation.outputs_flatten run.inRange,
    passed_eq_datapathSpec]

end PacketFilter.Contracts
