import PacketFilter.Hardware.Network

/-! # Header codec contract

The fields of the three headers tile the lowest 336 bits of the first phit, in
the order in which they are declared, so serializing and deserializing undo
each other there.
-/

namespace PacketFilter.Contracts

open BitRanges Hardware

/-! ## From a word and back

Each header continues the copy of `data` where the header before it ends. -/

theorem serialize_deserialize_ethernet (header : EthernetHeader)
    (data word : BitVec 512) :
    (header.deserialize data 0).serialize (splice data word 0) 0 =
      splice data word 112 := by
  simp only [EthernetHeader.deserialize, EthernetHeader.serialize, if_pos]
  rw [setRange_splice data word 47 (by omega),
    setRange_splice data word 95 (by omega),
    setRange_splice data word 111 (by omega)]

theorem serialize_deserialize_ipv4 (header : IPv4Header)
    (data word : BitVec 512) :
    (header.deserialize data 0).serialize (splice data word 112) 0 =
      splice data word 272 := by
  simp only [IPv4Header.deserialize, IPv4Header.serialize, if_pos]
  rw [setRange_splice data word 115 (by omega),
    setRange_splice data word 119 (by omega),
    setRange_splice data word 127 (by omega),
    setRange_splice data word 143 (by omega),
    setRange_splice data word 159 (by omega),
    setRange_splice data word 162 (by omega),
    setRange_splice data word 175 (by omega),
    setRange_splice data word 183 (by omega),
    setRange_splice data word 191 (by omega),
    setRange_splice data word 207 (by omega),
    setRange_splice data word 239 (by omega),
    setRange_splice data word 271 (by omega)]

theorem serialize_deserialize_udp (header : UDPHeader)
    (data word : BitVec 512) :
    (header.deserialize data 0).serialize (splice data word 272) 0 =
      splice data word 336 := by
  simp only [UDPHeader.deserialize, UDPHeader.serialize, if_pos]
  rw [setRange_splice data word 287 (by omega),
    setRange_splice data word 303 (by omega),
    setRange_splice data word 319 (by omega),
    setRange_splice data word 335 (by omega)]

theorem serialize_deserialize (packet : NetworkPacket)
    (data word : BitVec 512) :
    (packet.deserialize data 0).serialize word 0 = splice data word 336 := by
  have start : word = splice data word 0 := (splice_zero data word).symm
  rw [start]
  simp only [NetworkPacket.deserialize, NetworkPacket.serialize]
  rw [serialize_deserialize_ethernet, serialize_deserialize_ipv4,
    serialize_deserialize_udp, splice_zero]

/-! ## From a packet and back

A field is read where it was written, and no later write reaches it. -/

theorem deserialize_serialize_ethernet (header prior : EthernetHeader)
    (word : BitVec 512) :
    prior.deserialize (header.serialize word 0) 0 = header := by
  simp only [EthernetHeader.serialize, EthernetHeader.deserialize, if_pos]
  simp (disch := omega) only [extractLsb_setRange_of_disjoint,
    extractLsb_setRange_self]

theorem deserialize_serialize_ipv4 (header prior : IPv4Header)
    (word : BitVec 512) :
    prior.deserialize (header.serialize word 0) 0 = header := by
  simp only [IPv4Header.serialize, IPv4Header.deserialize, if_pos]
  simp (disch := omega) only [extractLsb_setRange_of_disjoint,
    extractLsb_setRange_self]

theorem deserialize_serialize_udp (header prior : UDPHeader)
    (word : BitVec 512) :
    prior.deserialize (header.serialize word 0) 0 = header := by
  simp only [UDPHeader.serialize, UDPHeader.deserialize, if_pos]
  simp (disch := omega) only [extractLsb_setRange_of_disjoint,
    extractLsb_setRange_self]

theorem extractLsb_serialize_ipv4 (header : IPv4Header) (word : BitVec 512)
    {hi lo : Nat} (ordered : lo ≤ hi) (below : hi < 112) :
    (header.serialize word 0).extractLsb hi lo = word.extractLsb hi lo := by
  simp only [IPv4Header.serialize, if_pos]
  simp (disch := omega) only [extractLsb_setRange_of_disjoint]

theorem extractLsb_serialize_udp (header : UDPHeader) (word : BitVec 512)
    {hi lo : Nat} (ordered : lo ≤ hi) (below : hi < 272) :
    (header.serialize word 0).extractLsb hi lo = word.extractLsb hi lo := by
  simp only [UDPHeader.serialize, if_pos]
  simp (disch := omega) only [extractLsb_setRange_of_disjoint]

theorem deserialize_serialize (packet prior : NetworkPacket)
    (word : BitVec 512) :
    prior.deserialize (packet.serialize word 0) 0 = packet := by
  have ethernet := deserialize_serialize_ethernet packet.ethHdr prior.ethHdr word
  have ipv4 := deserialize_serialize_ipv4 packet.ipHdr prior.ipHdr
    (packet.ethHdr.serialize word 0)
  have udp := deserialize_serialize_udp packet.udpHdr prior.udpHdr
    (packet.ipHdr.serialize (packet.ethHdr.serialize word 0) 0)
  rw [NetworkPacket.deserialize, NetworkPacket.serialize, udp]
  -- the headers behind a header leave its fields in place
  simp only [EthernetHeader.deserialize, IPv4Header.deserialize, if_pos]
    at ethernet ipv4 ⊢
  simp (disch := omega) only [extractLsb_serialize_udp,
    extractLsb_serialize_ipv4, ethernet, ipv4]

/-- The codec loses nothing in either direction, and only the first phit takes
part in it. -/
theorem header_codec (data word : BitVec 512) (packet prior : NetworkPacket) :
    ((prior.deserialize data 0).serialize word 0).extractLsb 335 0 =
        data.extractLsb 335 0 ∧
      ((prior.deserialize data 0).serialize word 0).extractLsb 511 336 =
        word.extractLsb 511 336 ∧
      prior.deserialize (packet.serialize word 0) 0 = packet ∧
      ∀ phitIdx : BitVec 32, phitIdx ≠ 0 →
        packet.serialize word phitIdx = word ∧
          prior.deserialize data phitIdx = prior := by
  rw [serialize_deserialize]
  refine ⟨?_, ?_, ?_, ?_⟩
  · exact extractLsb_splice_low data word (by omega) (by omega) (by omega)
  · exact extractLsb_splice_high data word (by omega) (by omega) (by omega)
  · exact deserialize_serialize packet prior word
  · intro phitIdx later
    exact ⟨packet.serialize_of_ne_zero word later,
      prior.deserialize_of_ne_zero data later⟩

end PacketFilter.Contracts
