import PacketFilter.Foundation.BitRanges
import PacketFilter.Foundation.ByteLanes

/-! # Network headers

The headers are laid out in the first phit of a packet; later phits carry no
header field.
-/

namespace PacketFilter.Hardware

open BitRanges

def bswap16 (value : BitVec 16) : BitVec 16 :=
  value.extractLsb 7 0 ++ value.extractLsb 15 8

structure EthernetHeader where
  destMac : BitVec 48
  srcMac : BitVec 48
  ethType : BitVec 16
  deriving DecidableEq

namespace EthernetHeader

def ipv4 : BitVec 16 := 0x0800

def serialize (header : EthernetHeader) (data : BitVec 512)
    (phitIdx : BitVec 32) : BitVec 512 :=
  if phitIdx = 0 then
    let data := setRange data 47 0 header.destMac
    let data := setRange data 95 48 header.srcMac
    let data := setRange data 111 96 header.ethType
    data
  else data

def deserialize (header : EthernetHeader) (data : BitVec 512)
    (phitIdx : BitVec 32) : EthernetHeader :=
  if phitIdx = 0 then
    { destMac := data.extractLsb 47 0
      srcMac := data.extractLsb 95 48
      ethType := data.extractLsb 111 96 }
  else header

def isIpv4 (header : EthernetHeader) : Bool := header.ethType == bswap16 ipv4

end EthernetHeader

structure IPv4Header where
  version : BitVec 4
  ihl : BitVec 4
  dscpEcn : BitVec 8
  totalLength : BitVec 16
  identification : BitVec 16
  flags : BitVec 3
  fragmentOffset : BitVec 13
  ttl : BitVec 8
  protocol : BitVec 8
  headerChecksum : BitVec 16
  srcIp : BitVec 32
  destIp : BitVec 32
  deriving DecidableEq

namespace IPv4Header

def udp : BitVec 8 := 17

def serialize (header : IPv4Header) (data : BitVec 512)
    (phitIdx : BitVec 32) : BitVec 512 :=
  if phitIdx = 0 then
    let data := setRange data 115 112 header.version
    let data := setRange data 119 116 header.ihl
    let data := setRange data 127 120 header.dscpEcn
    let data := setRange data 143 128 header.totalLength
    let data := setRange data 159 144 header.identification
    let data := setRange data 162 160 header.flags
    let data := setRange data 175 163 header.fragmentOffset
    let data := setRange data 183 176 header.ttl
    let data := setRange data 191 184 header.protocol
    let data := setRange data 207 192 header.headerChecksum
    let data := setRange data 239 208 header.srcIp
    let data := setRange data 271 240 header.destIp
    data
  else data

def deserialize (header : IPv4Header) (data : BitVec 512)
    (phitIdx : BitVec 32) : IPv4Header :=
  if phitIdx = 0 then
    { version := data.extractLsb 115 112
      ihl := data.extractLsb 119 116
      dscpEcn := data.extractLsb 127 120
      totalLength := data.extractLsb 143 128
      identification := data.extractLsb 159 144
      flags := data.extractLsb 162 160
      fragmentOffset := data.extractLsb 175 163
      ttl := data.extractLsb 183 176
      protocol := data.extractLsb 191 184
      headerChecksum := data.extractLsb 207 192
      srcIp := data.extractLsb 239 208
      destIp := data.extractLsb 271 240 }
  else header

def isUdp (header : IPv4Header) : Bool := header.protocol == udp

end IPv4Header

structure UDPHeader where
  srcPort : BitVec 16
  destPort : BitVec 16
  length : BitVec 16
  checksum : BitVec 16
  deriving DecidableEq

namespace UDPHeader

def serialize (header : UDPHeader) (data : BitVec 512)
    (phitIdx : BitVec 32) : BitVec 512 :=
  if phitIdx = 0 then
    let data := setRange data 287 272 header.srcPort
    let data := setRange data 303 288 header.destPort
    let data := setRange data 319 304 header.length
    let data := setRange data 335 320 header.checksum
    data
  else data

def deserialize (header : UDPHeader) (data : BitVec 512)
    (phitIdx : BitVec 32) : UDPHeader :=
  if phitIdx = 0 then
    { srcPort := data.extractLsb 287 272
      destPort := data.extractLsb 303 288
      length := data.extractLsb 319 304
      checksum := data.extractLsb 335 320 }
  else header

end UDPHeader

structure NetworkPacket where
  ethHdr : EthernetHeader
  ipHdr : IPv4Header
  udpHdr : UDPHeader
  deriving DecidableEq

namespace NetworkPacket

def initial : NetworkPacket where
  ethHdr := ⟨0, 0, 0⟩
  ipHdr := ⟨0, 0, 0, 0, 0, 0, 0, 0, 0, 0, 0, 0⟩
  udpHdr := ⟨0, 0, 0, 0⟩

def serialize (packet : NetworkPacket) (data : BitVec 512)
    (phitIdx : BitVec 32) : BitVec 512 :=
  let data := packet.ethHdr.serialize data phitIdx
  let data := packet.ipHdr.serialize data phitIdx
  packet.udpHdr.serialize data phitIdx

def deserialize (packet : NetworkPacket) (data : BitVec 512)
    (phitIdx : BitVec 32) : NetworkPacket where
  ethHdr := packet.ethHdr.deserialize data phitIdx
  ipHdr := packet.ipHdr.deserialize data phitIdx
  udpHdr := packet.udpHdr.deserialize data phitIdx

/-- The key of the filtering decision, `(dest_ip, dest_port)`, for the packets
that take part in it. -/
def targetAddress (packet : NetworkPacket) :
    Option (BitVec 32 × BitVec 16) :=
  if packet.ethHdr.isIpv4 && packet.ipHdr.isUdp then
    some (packet.ipHdr.destIp, packet.udpHdr.destPort)
  else none

/-- The first phit determines every header field. -/
theorem deserialize_zero (packet other : NetworkPacket) (data : BitVec 512) :
    packet.deserialize data 0 = other.deserialize data 0 := rfl

theorem deserialize_of_ne_zero (packet : NetworkPacket) (data : BitVec 512)
    {phitIdx : BitVec 32} (later : phitIdx ≠ 0) :
    packet.deserialize data phitIdx = packet := by
  simp only [deserialize, EthernetHeader.deserialize, IPv4Header.deserialize,
    UDPHeader.deserialize, if_neg later]

theorem serialize_of_ne_zero (packet : NetworkPacket) (data : BitVec 512)
    {phitIdx : BitVec 32} (later : phitIdx ≠ 0) :
    packet.serialize data phitIdx = data := by
  simp only [serialize, EthernetHeader.serialize, IPv4Header.serialize,
    UDPHeader.serialize, if_neg later]

end NetworkPacket

end PacketFilter.Hardware
