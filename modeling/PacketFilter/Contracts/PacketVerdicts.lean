import PacketFilter.Contracts.Datapath

/-! # Packet verdicts

When a packet leaves the filter as a whole, when not at all, and when only a
part of it does.
-/

namespace PacketFilter.Contracts

open Hardware

/-! ## Rules inside packets -/

theorem slotForwards_append (earlier later : List Invocation)
    (slot : Fin hashTableSize) :
    slotForwards (earlier ++ later) slot =
      match DirectMapped.latest (fun config => decide (config.slot = slot))
        (idleConfigs later) with
      | some config => config.action == 1
      | none => slotForwards earlier slot := by
  rw [slotForwards, idleConfigs_append, DirectMapped.latest_append]
  cases DirectMapped.latest (fun config => decide (config.slot = slot))
    (idleConfigs later) <;> rfl

theorem history_prefix {run : List Invocation} {packet : List Arrival}
    (member : packet ∈ packets run) {first : Arrival}
    (isFirst : packet.head? = some first) {arrival : Arrival}
    (inPacket : arrival ∈ packet) : first.history <+: arrival.history := by
  refine Framing.forall_mem_frames _
    (fun first arrival => first.history <+: arrival.history) ?_
    packet member first isFirst arrival inPacket
  intro before arrival after split first isFirst
  rcases slotFilter.arrival_of_split split with ⟨isHistory, -, -⟩
  cases current : Framing.openFrame
      (fun arrival : Arrival => arrival.item.last) before with
  | nil =>
      rw [current] at isFirst
      rcases Option.some.inj isFirst with rfl
      exact List.prefix_refl _
  | cons head rest =>
      rw [current] at isFirst
      rcases Option.some.inj isFirst with rfl
      have earlier : head ∈ before := by
        rw [← Framing.closedFrames_flatten_append_openFrame
          (fun arrival : Arrival => arrival.item.last) before, current]
        simp
      rcases List.append_of_mem earlier with ⟨_, _, found⟩
      rcases slotFilter.arrival_of_split (isHistory.symm.trans found)
        with ⟨-, -, later, isLonger⟩
      exact ⟨_, isLonger.symm⟩

def since (first arrival : Arrival) : List Invocation :=
  arrival.history.drop first.history.length

theorem history_append_since {run : List Invocation} {packet : List Arrival}
    (member : packet ∈ packets run) {first : Arrival}
    (isFirst : packet.head? = some first) {arrival : Arrival}
    (inPacket : arrival ∈ packet) :
    arrival.history = first.history ++ since first arrival := by
  rcases history_prefix member isFirst inPacket with ⟨later, isLonger⟩
  simp [since, ← isLonger]

/-! ## Exact filtering up to slots -/

def Uninterrupted (packet : List Arrival) : Prop :=
  ∀ first ∈ packet.head?, ∀ arrival ∈ packet,
    idleConfigs (since first arrival) = []

instance (packet : List Arrival) : Decidable (Uninterrupted packet) :=
  inferInstanceAs (Decidable (∀ first ∈ packet.head?, _))

/-- A packet of a run whose first phit carries an IPv4/UDP destination and
during which no idle invocation happens. -/
structure AddressedPacket (run : DefinedRun) where
  arrivals : List Arrival
  member : arrivals ∈ packets run.invocations
  first : Arrival
  isFirst : arrivals.head? = some first
  ip : BitVec 32
  port : BitVec 16
  addressed : firstPhitKey first.item = some (ip, port)
  uninterrupted : Uninterrupted arrivals

namespace AddressedPacket

variable {run : DefinedRun}

def slot (packet : AddressedPacket run) : Fin hashTableSize :=
  slotIndex packet.ip packet.port

theorem emitted_iff (packet : AddressedPacket run) {arrival : Arrival}
    (inPacket : arrival ∈ packet.arrivals) :
    Emitted arrival ↔
      slotForwards packet.first.history packet.slot = true := by
  rw [emitted_iff_keepsPhit run packet.member packet.isFirst inPacket,
    keepsPhit_of_key packet.addressed,
    history_append_since packet.member packet.isFirst inPacket,
    slotForwards_append,
    packet.uninterrupted packet.first packet.isFirst arrival inPacket]
  rfl

theorem first_mem (packet : AddressedPacket run) :
    packet.first ∈ packet.arrivals :=
  List.mem_of_head? packet.isFirst

theorem forwarded_iff (packet : AddressedPacket run) :
    Forwarded packet.arrivals ↔
      slotForwards packet.first.history packet.slot = true := by
  constructor
  · intro forwarded
    exact (packet.emitted_iff packet.first_mem).mp
      (forwarded packet.first packet.first_mem)
  · intro opened arrival inPacket
    exact (packet.emitted_iff inPacket).mpr opened

theorem dropped_iff (packet : AddressedPacket run) :
    Dropped packet.arrivals ↔
      slotForwards packet.first.history packet.slot = false := by
  rw [← Bool.not_eq_true]
  constructor
  · intro dropped opened
    exact dropped packet.first packet.first_mem
      ((packet.emitted_iff packet.first_mem).mpr opened)
  · intro shut arrival inPacket emitted
    exact shut ((packet.emitted_iff inPacket).mp emitted)

end AddressedPacket

/-- A packet during which no idle invocation happens leaves as a whole when the
latest idle invocation for its slot had action 1, and not at all otherwise. Idle
invocations for other slots have no part in it. -/
theorem verdict_of_slot (run : DefinedRun) (packet : AddressedPacket run) :
    (Forwarded packet.arrivals ↔
        slotForwards packet.first.history packet.slot = true) ∧
      (Dropped packet.arrivals ↔
        slotForwards packet.first.history packet.slot = false) ∧
      ∀ (other : DefinedRun) (twin : AddressedPacket other),
        twin.slot = packet.slot →
        (idleConfigs twin.first.history).filter (·.slot = packet.slot) =
          (idleConfigs packet.first.history).filter (·.slot = packet.slot) →
        (Forwarded twin.arrivals ↔ Forwarded packet.arrivals) := by
  refine ⟨packet.forwarded_iff, packet.dropped_iff, ?_⟩
  intro other twin sameSlot sameRules
  rw [twin.forwarded_iff, packet.forwarded_iff, sameSlot, slotForwards,
    slotForwards, DirectMapped.latest, DirectMapped.latest, sameRules]

def udpPhit (ip : BitVec 32) (port : BitVec 16) (last : Bool) : Axis250 where
  data := 0#208 ++ port ++ 0#16 ++ ip ++ 0#48 ++ 17#8 ++ 0#72 ++ 0x0008#16 ++
    0#96
  keep := 0
  user := 0
  last := last

def sampleConfig (action : BitVec 8) : Config :=
  ⟨0x0102A8C0, 0x3421, action⟩

/-- A run that configures 192.168.2.1:8500 with action 1, then possibly another
address, and then receives one packet of one phit for `ip`, port 8500. -/
def sampleRun (others : List Invocation) (ip : BitVec 32) : List Invocation :=
  ⟨sampleConfig 1, none⟩ :: others ++
    [⟨sampleConfig 1, some (udpPhit ip 0x3421 true)⟩]

def samplePacket (others : List Invocation) (ip : BitVec 32) : List Arrival :=
  [⟨⟨sampleConfig 1, none⟩ :: others,
    ⟨sampleConfig 1, some (udpPhit ip 0x3421 true)⟩, udpPhit ip 0x3421 true⟩]

theorem verdict_of_slot_sample :
    Forwarded (samplePacket [⟨⟨0x5F02A8C0, 0x3521, 0⟩, none⟩] 0x0102A8C0) ↔
      Forwarded (samplePacket [] 0x0102A8C0) :=
  (verdict_of_slot ⟨sampleRun [] 0x0102A8C0, by decide +kernel⟩
    ⟨samplePacket [] 0x0102A8C0, by decide +kernel, _, rfl, 0x0102A8C0, 0x3421,
      by decide +kernel, by decide +kernel⟩).2.2
    ⟨sampleRun [⟨⟨0x5F02A8C0, 0x3521, 0⟩, none⟩] 0x0102A8C0,
      by decide +kernel⟩
    ⟨samplePacket [⟨⟨0x5F02A8C0, 0x3521, 0⟩, none⟩] 0x0102A8C0,
      by decide +kernel, _, rfl, 0x0102A8C0, 0x3421, by decide +kernel,
      by decide +kernel⟩
    rfl (by decide +kernel)

/-- Whether the latest idle invocation that carried exactly this address had
action 1. -/
def pairForwards (history : List Invocation) (ip : BitVec 32)
    (port : BitVec 16) : Bool :=
  (DirectMapped.latest
    (fun config => decide (config.ipv4Addr = ip ∧ config.udpPort = port))
    (idleConfigs history)).any fun config => config.action == 1

/-- Addresses are not told apart inside a slot: with only 192.168.2.1:8500
configured, a packet for 192.168.2.32:8500 is forwarded. -/
theorem not_verdict_of_pair :
    ¬ ∀ (run : DefinedRun) (packet : AddressedPacket run),
      Forwarded packet.arrivals ↔
        pairForwards packet.first.history packet.ip packet.port = true := by
  intro exactly
  have aliased := exactly ⟨sampleRun [] 0x2002A8C0, by decide +kernel⟩
    ⟨samplePacket [] 0x2002A8C0, by decide +kernel, _, rfl, 0x2002A8C0, 0x3421,
      by decide +kernel, by decide +kernel⟩
  revert aliased
  decide +kernel

/-! ## Whole packets -/

/-- The idle invocations between the phits of a packet leave a slot as they
found it: before every phit, the latest one of them for the slot has action 1
just when the slot forwarded at the first phit. -/
def LeavesSlot (packet : List Arrival) (first : Arrival)
    (slot : Fin hashTableSize) : Prop :=
  ∀ arrival ∈ packet,
    ∀ config ∈ DirectMapped.latest (fun config => decide (config.slot = slot))
        (idleConfigs (since first arrival)),
      (config.action == 1) = slotForwards first.history slot

/-- The idle invocations inside an IPv4/UDP packet leave its slot as they found
it. -/
def Steady (packet : List Arrival) : Prop :=
  ∀ first ∈ packet.head?, ∀ key ∈ firstPhitKey first.item,
    LeavesSlot packet first (slotIndex key.1 key.2)

theorem leavesSlot_iff {run : List Invocation} {packet : List Arrival}
    (member : packet ∈ packets run) {first : Arrival}
    (isFirst : packet.head? = some first) (slot : Fin hashTableSize) :
    LeavesSlot packet first slot ↔
      ∀ arrival ∈ packet,
        slotForwards arrival.history slot = slotForwards first.history slot := by
  refine forall₂_congr fun arrival inPacket => ?_
  rw [history_append_since member isFirst inPacket, slotForwards_append]
  cases DirectMapped.latest (fun config => decide (config.slot = slot))
    (idleConfigs (since first arrival)) <;> simp

theorem forwarded_or_dropped_iff_constant {packet : List Arrival}
    {verdict : Arrival → Bool}
    (emitted : ∀ arrival ∈ packet, Emitted arrival ↔ verdict arrival = true)
    {first : Arrival} (firstMember : first ∈ packet) :
    Forwarded packet ∨ Dropped packet ↔
      ∀ arrival ∈ packet, verdict arrival = verdict first := by
  constructor
  · rintro (forwarded | dropped) arrival inPacket
    · rw [(emitted arrival inPacket).mp (forwarded arrival inPacket),
        (emitted first firstMember).mp (forwarded first firstMember)]
    · have shut : ∀ arrival ∈ packet, verdict arrival = false :=
        fun arrival inPacket => Bool.eq_false_iff.mpr
          ((emitted arrival inPacket).not.mp (dropped arrival inPacket))
      rw [shut arrival inPacket, shut first firstMember]
  · intro constant
    cases opened : verdict first with
    | true =>
        left
        intro arrival inPacket
        rw [emitted arrival inPacket, constant arrival inPacket, opened]
    | false =>
        right
        intro arrival inPacket
        rw [emitted arrival inPacket, constant arrival inPacket, opened]
        exact Bool.false_ne_true

theorem forwarded_or_dropped_iff_steady (run : DefinedRun)
    {packet : List Arrival} (member : packet ∈ packets run.invocations) :
    Forwarded packet ∨ Dropped packet ↔ Steady packet := by
  cases isFirst : packet.head? with
  | none =>
      rcases List.head?_eq_none_iff.mp isFirst with rfl
      simp [Forwarded, Steady]
  | some first =>
      have firstMember : first ∈ packet := List.mem_of_head? isFirst
      rw [forwarded_or_dropped_iff_constant (fun _ inPacket =>
        emitted_iff_keepsPhit run member isFirst inPacket) firstMember]
      cases addressed : firstPhitKey first.item with
      | none =>
          simp [Steady, isFirst, addressed, keepsPhit_of_no_key addressed]
      | some key =>
          simp only [keepsPhit_of_key addressed, Steady, isFirst, addressed,
            Option.mem_some_iff, forall_eq']
          exact (leavesSlot_iff member isFirst _).symm

/-- Every completed packet leaves as a whole or not at all exactly in the runs
whose idle invocations leave the slot of every packet they interrupt as they
found it. -/
theorem packets_whole_iff_steady (run : DefinedRun) :
    (∀ packet ∈ completePackets run.invocations,
        Forwarded packet ∨ Dropped packet) ↔
      ∀ packet ∈ completePackets run.invocations, Steady packet :=
  forall₂_congr fun _ member => forwarded_or_dropped_iff_steady run
    (Framing.mem_frames_of_mem_closedFrames _ member)

def interruptedRun : List Invocation :=
  [⟨sampleConfig 1, none⟩,
    ⟨sampleConfig 1, some (udpPhit 0x0102A8C0 0x3421 false)⟩,
    ⟨sampleConfig 0, none⟩,
    ⟨sampleConfig 0, some (udpPhit 0x0102A8C0 0x3421 true)⟩]

/-- The first phit of the interrupted packet leaves the filter, the last one
does not. -/
theorem not_packets_whole :
    ¬ ∀ run : DefinedRun, ∀ packet ∈ completePackets run.invocations,
      Forwarded packet ∨ Dropped packet := by
  intro whole
  have interrupted := whole ⟨interruptedRun, by decide +kernel⟩
  revert interrupted
  decide +kernel

end PacketFilter.Contracts
