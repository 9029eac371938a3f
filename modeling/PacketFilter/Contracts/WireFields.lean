import PacketFilter.Hardware.Network

/-! # Fields on the wire

The fields of an IPv4 header as the bytes of the frame have them. A standard
counts the bits of a byte from the highest, a range of `network.cc` counts them
from the lowest.
-/

namespace PacketFilter.Contracts

open Hardware ByteLanes

def ipv4Lanes (data : BitVec 512) : IPv4Header where
  version := (lane data 14).extractLsb 3 0
  ihl := (lane data 14).extractLsb 7 4
  dscpEcn := lane data 15
  totalLength := lane data 17 ++ lane data 16
  identification := lane data 19 ++ lane data 18
  flags := (lane data 20).extractLsb 2 0
  fragmentOffset := lane data 21 ++ (lane data 20).extractLsb 7 3
  ttl := lane data 22
  protocol := lane data 23
  headerChecksum := lane data 25 ++ lane data 24
  srcIp := lane data 29 ++ lane data 28 ++ lane data 27 ++ lane data 26
  destIp := lane data 33 ++ lane data 32 ++ lane data 31 ++ lane data 30

theorem deserialize_ipv4Lanes (header : IPv4Header) (data : BitVec 512) :
    header.deserialize data 0 = ipv4Lanes data := by
  have version : data.extractLsb 115 112 = (lane data 14).extractLsb 3 0 :=
    extract_within data 14 0 4 (by decide)
  have ihl : data.extractLsb 119 116 = (lane data 14).extractLsb 7 4 :=
    extract_within data 14 4 4 (by decide)
  have flags : data.extractLsb 162 160 = (lane data 20).extractLsb 2 0 :=
    extract_within data 20 0 3 (by decide)
  have fragmentOffset : data.extractLsb 175 163 =
      lane data 21 ++ (lane data 20).extractLsb 7 3 :=
    extract_across data 20 3 5 8 rfl
  have totalLength : data.extractLsb 143 128 =
      lane data 17 ++ lane data 16 := extract_two data 16
  have identification : data.extractLsb 159 144 =
      lane data 19 ++ lane data 18 := extract_two data 18
  have headerChecksum : data.extractLsb 207 192 =
      lane data 25 ++ lane data 24 := extract_two data 24
  have srcIp : data.extractLsb 239 208 =
      lane data 29 ++ lane data 28 ++ lane data 27 ++ lane data 26 :=
    extract_four data 26
  have destIp : data.extractLsb 271 240 =
      lane data 33 ++ lane data 32 ++ lane data 31 ++ lane data 30 :=
    extract_four data 30
  rw [IPv4Header.deserialize, if_pos rfl, version, ihl, flags, fragmentOffset,
    totalLength, identification, headerChecksum, srcIp, destIp]
  rfl

/-! ## Fields that share a byte -/

/-- The fields of less than a byte as RFC 791 places them, in a frame whose IPv4
header starts at byte 14: the field that comes first is in the highest bits. -/
structure SubByteFields where
  version : BitVec 4
  ihl : BitVec 4
  flags : BitVec 3
  deriving DecidableEq

def wireFields (data : BitVec 512) : SubByteFields where
  version := (lane data 14).extractLsb 7 4
  ihl := (lane data 14).extractLsb 3 0
  flags := (lane data 20).extractLsb 7 5

/-- The header means what its fields are named. -/
structure Named (header : IPv4Header) (data : BitVec 512) : Prop where
  version : header.version = (wireFields data).version
  ihl : header.ihl = (wireFields data).ihl
  flags : header.flags = (wireFields data).flags
  isFour : (wireFields data).version = 4 → header.version = 4

/-- Each of the two bytes has the same bits at both ends. -/
def EndsAlike (data : BitVec 512) : Prop :=
  (lane data 14).extractLsb 7 4 = (lane data 14).extractLsb 3 0 ∧
    (lane data 20).extractLsb 7 5 = (lane data 20).extractLsb 2 0

instance (data : BitVec 512) : Decidable (EndsAlike data) :=
  inferInstanceAs (Decidable (_ ∧ _))

theorem deserialize_swapped (header : IPv4Header) (data : BitVec 512) :
    (header.deserialize data 0).version = (wireFields data).ihl ∧
      (header.deserialize data 0).ihl = (wireFields data).version := by
  rw [deserialize_ipv4Lanes]
  exact ⟨rfl, rfl⟩

/-- Every header is at least five words long, so no packet of version 4 is
parsed as one. -/
theorem deserialize_version_ne_four (header : IPv4Header) {data : BitVec 512}
    (wellFormed : 5 ≤ (wireFields data).ihl) :
    (header.deserialize data 0).version ≠ 4 := by
  rw [(deserialize_swapped header data).1]
  intro isFour
  rw [isFour] at wellFormed
  exact absurd wellFormed (by decide)

/-- The fields mean what they are named exactly in frames that do not tell the
two ends of a byte apart. -/
theorem fields_named_iff (header : IPv4Header) (data : BitVec 512) :
    Named (header.deserialize data 0) data ↔ EndsAlike data := by
  rw [deserialize_ipv4Lanes]
  constructor
  · intro named
    exact ⟨named.version.symm, named.flags.symm⟩
  · rintro ⟨nibbles, flags⟩
    exact
      { version := nibbles.symm
        ihl := nibbles
        flags := flags.symm
        isFour := fun isFour => nibbles.symm.trans isFour }

def udpFrame : BitVec 512 :=
  0#320 ++ 0x1140004000002c000045#80 ++ 0x0008#16 ++ 0x000000000002#48 ++
    0x000000000001#48

theorem not_fields_named :
    ¬ ∀ (header : IPv4Header) (data : BitVec 512),
      Named (header.deserialize data 0) data := by
  intro named
  have wellFormed : 5 ≤ (wireFields udpFrame).ihl := by decide +kernel
  have isFour : (wireFields udpFrame).version = 4 := by decide +kernel
  exact deserialize_version_ne_four NetworkPacket.initial.ipHdr wellFormed
    ((named _ udpFrame).isFour isFour)

end PacketFilter.Contracts
