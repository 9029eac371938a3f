import PacketFilter.Contracts.Datapath
import PacketFilter.Platform.SharedRegisters
import PacketFilter.Software.PacketHandler

/-! # Addressing contracts

The bytes of a frame that the hardware, the rule updates of the software and
the packet handler look at, and which of them are the UDP destination port.
-/

namespace PacketFilter.Contracts

open Hardware Software ByteLanes CText

/-- The bytes of an Ethernet frame, padded to the minimum length. -/
structure Frame where
  bytes : List (BitVec 8)
  minimum : 60 ≤ bytes.length

namespace Frame

def byte (frame : Frame) (index : Nat) : BitVec 8 := frame.bytes.getD index 0

/-- Two bytes of the frame as the port registers hold them, the first byte in
the low lane. -/
def portAt (frame : Frame) (index : Nat) : BitVec 16 :=
  frame.byte (index + 1) ++ frame.byte index

def destIp (frame : Frame) : BitVec 32 :=
  frame.byte 33 ++ frame.byte 32 ++ frame.byte 31 ++ frame.byte 30

end Frame

/-- A phit that carries the first bytes of a frame, byte `i` in lane `i`. -/
structure FirstPhit (frame : Frame) where
  phit : Axis250
  carries : ∀ index < frame.bytes.length, index < 64 →
    lane phit.data index = frame.byte index

structure ReceivedFrame (frame : Frame) where
  mbuf : Mbuf
  holds : ∀ index < frame.bytes.length, mbuf.memory index = frame.byte index

namespace FirstPhit

variable {frame : Frame} (first : FirstPhit frame) (network : NetworkPacket)

theorem lane_eq {index : Nat} (within : index < 60) :
    lane first.phit.data index = frame.byte index :=
  first.carries index (within.trans_le frame.minimum) (within.trans (by decide))

theorem destIp_eq :
    (network.deserialize first.phit.data 0).ipHdr.destIp = frame.destIp := by
  have lanes := extract_four first.phit.data 30
  rw [first.lane_eq (by decide), first.lane_eq (by decide),
    first.lane_eq (by decide), first.lane_eq (by decide)] at lanes
  exact lanes

theorem destPort_eq :
    (network.deserialize first.phit.data 0).udpHdr.destPort =
      frame.portAt 36 := by
  have lanes := extract_two first.phit.data 36
  rw [first.lane_eq (by decide), first.lane_eq (by decide)] at lanes
  exact lanes

theorem isIpv4_and_isUdp_iff :
    ((network.deserialize first.phit.data 0).ethHdr.isIpv4 &&
        (network.deserialize first.phit.data 0).ipHdr.isUdp) = true ↔
      (frame.byte 12 = 0x08 ∧ frame.byte 13 = 0x00) ∧ frame.byte 23 = 17 := by
  rw [NetworkPacket.deserialize, isIpv4_deserialize_zero,
    isUdp_deserialize_zero, first.lane_eq (by decide),
    first.lane_eq (by decide), first.lane_eq (by decide), Bool.and_eq_true,
    decide_eq_true_iff, decide_eq_true_iff]

theorem firstPhitKey_eq :
    firstPhitKey first.phit =
      if (frame.byte 12 = 0x08 ∧ frame.byte 13 = 0x00) ∧
          frame.byte 23 = 17 then
        some (frame.destIp, frame.portAt 36)
      else none := by
  have key := targetAddress_deserialize_zero .initial first.phit
  rw [← key, NetworkPacket.targetAddress, first.destIp_eq, first.destPort_eq]
  exact if_congr (first.isIpv4_and_isUdp_iff .initial) rfl rfl

end FirstPhit

theorem ReceivedFrame.skipped_iff {frame : Frame}
    (received : ReceivedFrame frame) (threadId : BitVec 16) :
    (handled threadId received.mbuf).Skipped ↔
      ¬ ((frame.byte 12 = 0x08 ∧ frame.byte 13 = 0x00) ∧
        frame.byte 23 = 17) := by
  have short : ∀ index < 60, received.mbuf.memory index = frame.byte index :=
    fun index within => received.holds index (within.trans_le frame.minimum)
  have ethertype : rteEtherTypeIpv4 = 0x08#8 ++ 0x00#8 := by decide
  rw [handled_skipped_iff, short 12 (by decide), short 13 (by decide),
    short 23 (by decide), ethertype, append_inj]
  rfl

/-! ## One key in three places -/

def AddressedTo (frame : Frame) (a b c d : BitVec 8) (port : BitVec 16) :
    Prop :=
  (frame.byte 30 = a ∧ frame.byte 31 = b ∧ frame.byte 32 = c ∧
      frame.byte 33 = d) ∧
    frame.byte 36 ++ frame.byte 37 = port

theorem destIp_eq_iff (frame : Frame) (a b c d : BitVec 8) :
    d ++ c ++ b ++ a = frame.destIp ↔
      frame.byte 30 = a ∧ frame.byte 31 = b ∧ frame.byte 32 = c ∧
        frame.byte 33 = d := by
  rw [Frame.destIp, append_inj, append_inj, append_inj]
  constructor
  · rintro ⟨⟨⟨isD, isC⟩, isB⟩, isA⟩
    exact ⟨isA.symm, isB.symm, isC.symm, isD.symm⟩
  · rintro ⟨isA, isB, isC, isD⟩
    exact ⟨⟨⟨isD.symm, isC.symm⟩, isB.symm⟩, isA.symm⟩

theorem htons_eq_portAt_iff (frame : Frame) (port : BitVec 16) (index : Nat) :
    htons port = frame.portAt index ↔
      frame.byte index ++ frame.byte (index + 1) = port := by
  have whole : port = lane port 1 ++ lane port 0 :=
    BitVec.extractLsb'_eq_self.symm.trans (extract_two port 0)
  have inOrder : frame.byte index ++ frame.byte (index + 1) =
      lane port 1 ++ lane port 0 ↔
        frame.byte index = lane port 1 ∧
          frame.byte (index + 1) = lane port 0 := append_inj
  rw [← whole] at inOrder
  rw [htons, Frame.portAt, append_inj, inOrder]
  constructor
  · rintro ⟨low, high⟩
    exact ⟨high.symm, low.symm⟩
  · rintro ⟨high, low⟩
    exact ⟨low.symm, high.symm⟩

theorem quad_ne_inaddrNone {a b c d : BitVec 8}
    (notBroadcast : ¬ (a = 255 ∧ b = 255 ∧ c = 255 ∧ d = 255)) :
    d ++ c ++ b ++ a ≠ inaddrNone := by
  have ones : inaddrNone = 255#8 ++ 255#8 ++ 255#8 ++ 255#8 := by decide
  rw [ones, Ne, append_inj, append_inj, append_inj]
  rintro ⟨⟨⟨isD, isC⟩, isB⟩, isA⟩
  exact notBroadcast ⟨isA, isB, isC, isD⟩

theorem registers_eq_headers_iff {a b c d : BitVec 8} {port : Nat}
    (positive : 0 < port) (inRange : port < 2 ^ 16)
    (notBroadcast : ¬ (a = 255 ∧ b = 255 ∧ c = 255 ∧ d = 255))
    (action : RuleAction) (registers : Config) (network : NetworkPacket)
    {frame : Frame} (first : FirstPhit frame) :
    ∃ writes,
      updateRule (dottedQuad a b c d ++ ':' :: decimal port) action =
          .ok writes ∧
        ((writes.foldl Config.writeRegister registers).ipv4Addr =
              (network.deserialize first.phit.data 0).ipHdr.destIp ∧
            (writes.foldl Config.writeRegister registers).udpPort =
              (network.deserialize first.phit.data 0).udpHdr.destPort ↔
          AddressedTo frame a b c d (BitVec.ofNat 16 port)) := by
  have address : ∃ address : ValidAddress,
      address.netAddr = dottedQuad a b c d ++ ':' :: decimal port ∧
        address.ip = d ++ c ++ b ++ a ∧
        address.port = htons (BitVec.ofNat 16 port) :=
    ⟨⟨_, _, _, parseNetAddr_dottedQuad a b c d positive inRange
      (quad_ne_inaddrNone notBroadcast)⟩, rfl, rfl, rfl⟩
  rcases address with ⟨address, isText, isIp, isPort⟩
  refine ⟨address.writes action, ?_, ?_⟩
  · rw [← isText]
    exact address.updateRule_netAddr action
  · rw [Platform.foldl_writes, Platform.rule, first.destIp_eq,
      first.destPort_eq, isIp, isPort]
    exact and_congr (destIp_eq_iff frame a b c d)
      (htons_eq_portAt_iff frame _ 36)

theorem udp_of_emitted {frame : Frame} (first : FirstPhit frame)
    (run : DefinedRun) {packet : List Arrival}
    (member : packet ∈ packets run.invocations)
    (starts : packet.head?.map FrameFilter.Arrival.item = some first.phit)
    {arrival : Arrival} (inPacket : arrival ∈ packet)
    (emitted : Emitted arrival) :
    (frame.byte 12 = 0x08 ∧ frame.byte 13 = 0x00) ∧ frame.byte 23 = 17 := by
  rcases Option.map_eq_some_iff.mp starts with ⟨leading, isFirst, isPhit⟩
  have kept := (emitted_iff_keepsPhit run member isFirst inPacket).mp emitted
  by_contra other
  have unaddressed : firstPhitKey leading.item = none := by
    rw [isPhit, first.firstPhitKey_eq, if_neg other]
  rw [keepsPhit_of_no_key unaddressed] at kept
  cases kept

/-- The rule for an address matches the headers of exactly the frames addressed
to it, and the handler accepts exactly the frames the hardware looks up. So the
handler skips no packet of which the hardware forwards a phit. -/
theorem addresses_agree (a b c d : BitVec 8) (port : Nat) (positive : 0 < port)
    (inRange : port < 2 ^ 16)
    (notBroadcast : ¬ (a = 255 ∧ b = 255 ∧ c = 255 ∧ d = 255))
    (action : RuleAction) (registers : Config) (network : NetworkPacket)
    (frame : Frame) (first : FirstPhit frame) (received : ReceivedFrame frame)
    (threadId : BitVec 16) :
    (∃ writes,
      updateRule (dottedQuad a b c d ++ ':' :: decimal port) action =
          .ok writes ∧
        ((writes.foldl Config.writeRegister registers).ipv4Addr =
              (network.deserialize first.phit.data 0).ipHdr.destIp ∧
            (writes.foldl Config.writeRegister registers).udpPort =
              (network.deserialize first.phit.data 0).udpHdr.destPort ↔
          AddressedTo frame a b c d (BitVec.ofNat 16 port))) ∧
      (((network.deserialize first.phit.data 0).ethHdr.isIpv4 &&
            (network.deserialize first.phit.data 0).ipHdr.isUdp) = true ↔
          ¬ (handled threadId received.mbuf).Skipped) ∧
      ∀ (run : DefinedRun), ∀ packet ∈ packets run.invocations,
        packet.head?.map FrameFilter.Arrival.item = some first.phit →
        (∃ arrival ∈ packet, Emitted arrival) →
        ¬ (handled threadId received.mbuf).Skipped := by
  refine ⟨registers_eq_headers_iff positive inRange notBroadcast action
    registers network first, ?_, ?_⟩
  · rw [first.isIpv4_and_isUdp_iff, received.skipped_iff, not_not]
  · rintro run packet member starts ⟨arrival, inPacket, emitted⟩
    rw [received.skipped_iff, not_not]
    exact udp_of_emitted first run member starts inPacket emitted

/-- A frame of 64 bytes for 192.168.2.1 with 8500 at the place of the port when
the IPv4 header has no options. The word behind it ends in 53. -/
def sampleFrame (versionIhl : BitVec 8) : Frame where
  bytes := List.replicate 12 0 ++ [0x08, 0x00, versionIhl] ++
    List.replicate 8 0 ++ [17] ++ List.replicate 6 0 ++
    [192, 168, 2, 1, 0, 0, 0x21, 0x34, 0, 0, 0, 53] ++ List.replicate 22 0
  minimum := by simp

def packPhit (bytes : List (BitVec 8)) : Axis250 where
  data := bytes.foldr (fun byte rest => rest <<< 8 ||| byte.setWidth 512) 0
  keep := 0
  user := 0
  last := true

def plainPhit : FirstPhit (sampleFrame 0x45) :=
  ⟨packPhit (sampleFrame 0x45).bytes, by decide +kernel⟩

def plainReceived : ReceivedFrame (sampleFrame 0x45) :=
  ⟨⟨64, 4096, (sampleFrame 0x45).byte, by decide⟩, fun _ _ => rfl⟩

theorem addresses_agree_sample :
    (∃ writes,
      updateRule (dottedQuad 192 168 2 1 ++ ':' :: decimal 8500) .forward =
          .ok writes ∧
        ((writes.foldl Config.writeRegister ⟨0, 0, 0⟩).ipv4Addr =
              (NetworkPacket.initial.deserialize
                plainPhit.phit.data 0).ipHdr.destIp ∧
            (writes.foldl Config.writeRegister ⟨0, 0, 0⟩).udpPort =
              (NetworkPacket.initial.deserialize
                plainPhit.phit.data 0).udpHdr.destPort ↔
          AddressedTo (sampleFrame 0x45) 192 168 2 1 8500)) ∧
      ¬ (handled 0 plainReceived.mbuf).Skipped :=
  have agree := addresses_agree 192 168 2 1 8500 (by decide) (by decide)
    (by decide) .forward ⟨0, 0, 0⟩ .initial (sampleFrame 0x45) plainPhit
    plainReceived 0
  ⟨agree.1, agree.2.1.mp (by decide +kernel)⟩

/-! ## The port that is looked up -/

namespace Frame

def ihl (frame : Frame) : Nat := (frame.byte 14).toNat % 16

def fragmentOffset (frame : Frame) : Nat :=
  (frame.byte 20).toNat % 32 * 256 + (frame.byte 21).toNat

/-- The destination port of the UDP header behind the IPv4 header and its
options. Only a datagram with fragment offset 0 carries one. -/
def udpDestPort (frame : Frame) : Option (BitVec 16) :=
  if frame.fragmentOffset = 0 then some (frame.portAt (14 + 4 * frame.ihl + 2))
  else none

end Frame

structure UdpDatagram (frame : Frame) : Prop where
  isIpv4 : frame.byte 12 = 0x08 ∧ frame.byte 13 = 0x00
  isUdp : frame.byte 23 = 17
  legalIhl : 5 ≤ frame.ihl
  complete : frame.fragmentOffset = 0 →
    14 + 4 * frame.ihl + 8 ≤ frame.bytes.length

structure FramePacket (run : DefinedRun) (frame : Frame) where
  first : FirstPhit frame
  arrivals : List Arrival
  member : arrivals ∈ packets run.invocations
  starts : arrivals.head?.map FrameFilter.Arrival.item = some first.phit

def lookupKey (arrival : Arrival) : Option (BitVec 32 × BitVec 16) :=
  ((after arrival.history).statics.networkAt arrival.item).targetAddress

/-- Whatever the header length, the options, the flags and the fragment offset
are, every phit of the packet is looked up with the bytes at the place of the
port in a header without options, and leaves the filter when that lookup
answers with 1. These bytes are the UDP destination port when the header has no
options and the datagram is not a later fragment. -/
theorem lookup_at_fixed_place {run : DefinedRun} {frame : Frame}
    (datagram : UdpDatagram frame) (packet : FramePacket run frame) :
    (∀ arrival ∈ packet.arrivals,
        lookupKey arrival = some (frame.destIp, frame.portAt 36) ∧
          (Emitted arrival ↔
            (after arrival.history).statics.hashTable.lookup frame.destIp
              (frame.portAt 36) = 1)) ∧
      (frame.ihl = 5 → frame.fragmentOffset = 0 →
        frame.udpDestPort = some (frame.portAt 36)) := by
  rcases Option.map_eq_some_iff.mp packet.starts with ⟨leading, isFirst, isPhit⟩
  have addressed :
      firstPhitKey leading.item = some (frame.destIp, frame.portAt 36) := by
    rw [isPhit, packet.first.firstPhitKey_eq,
      if_pos ⟨datagram.isIpv4, datagram.isUdp⟩]
  constructor
  · intro arrival inPacket
    constructor
    · rw [lookupKey, targetAddress_of_mem_packets run packet.member isFirst
        inPacket, addressed]
    · exact emitted_iff_lookup run packet.member isFirst addressed inPacket
  · intro noOptions notFragment
    rw [Frame.udpDestPort, if_pos notFragment, noOptions]

def singlePhitRun (phit : Axis250) : List Invocation :=
  [⟨⟨0, 0, 0⟩, some phit⟩]

def singlePhitPacket (phit : Axis250) : List Arrival :=
  [⟨[], ⟨⟨0, 0, 0⟩, some phit⟩, phit⟩]

def plainPacket : FramePacket ⟨singlePhitRun plainPhit.phit, by decide +kernel⟩
    (sampleFrame 0x45) where
  first := plainPhit
  arrivals := singlePhitPacket plainPhit.phit
  member := by decide +kernel
  starts := rfl

theorem lookup_at_fixed_place_sample :
    let frame := sampleFrame 0x45
    (∀ arrival ∈ plainPacket.arrivals,
        lookupKey arrival = some (frame.destIp, frame.portAt 36) ∧
          (Emitted arrival ↔
            (after arrival.history).statics.hashTable.lookup frame.destIp
              (frame.portAt 36) = 1)) ∧
      frame.udpDestPort = some (frame.portAt 36) :=
  have looked := lookup_at_fixed_place
    ⟨by decide, by decide, by decide, by decide⟩ plainPacket
  ⟨looked.1, looked.2 (by decide) (by decide)⟩

def optionPhit : FirstPhit (sampleFrame 0x46) :=
  ⟨packPhit (sampleFrame 0x46).bytes, by decide +kernel⟩

def optionPacket : FramePacket
    ⟨singlePhitRun optionPhit.phit, by decide +kernel⟩
    (sampleFrame 0x46) where
  first := optionPhit
  arrivals := singlePhitPacket optionPhit.phit
  member := by decide +kernel
  starts := rfl

/-- With one word of options the UDP header moves, and two bytes of the options
are looked up in place of its destination port. -/
theorem not_lookup_of_udpDestPort :
    ¬ ∀ (run : DefinedRun) (frame : Frame), UdpDatagram frame →
      ∀ packet : FramePacket run frame, ∀ arrival ∈ packet.arrivals,
        (lookupKey arrival).map Prod.snd = frame.udpDestPort := by
  intro real
  have moved := real _ _ ⟨by decide, by decide, by decide, by decide⟩
    optionPacket
  revert moved
  decide +kernel

end PacketFilter.Contracts
