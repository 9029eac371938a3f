import PacketFilter.Foundation.CText
import PacketFilter.Foundation.Messages

/-! # network_packet_handler

The callback that the receive loops run on every packet. It notes the bytes it
reads, by their distance from the start of the packet data.
-/

namespace PacketFilter.Software

open ByteLanes CText

/-- A received packet. The memory is indexed from the start of the packet data,
which no header offset takes past the end of the address space. -/
structure Mbuf where
  pktLen : BitVec 32
  data : BitVec 64
  memory : Nat → BitVec 8
  inMemory : 0 < data.toNat ∧ data.toNat + 42 < 2 ^ 64

abbrev Handler := StateM (List Nat)

namespace Mbuf

def mtodOffset (mbuf : Mbuf) (offset : Nat) : BitVec 64 :=
  mbuf.data + BitVec.ofNat 64 offset

theorem mtodOffset_ne_zero (mbuf : Mbuf) {offset : Nat} (within : offset ≤ 42) :
    mbuf.mtodOffset offset ≠ 0 := by
  have bounds := mbuf.inMemory
  intro isNull
  have value := congrArg BitVec.toNat isNull
  rw [mtodOffset, BitVec.toNat_add, BitVec.toNat_ofNat,
    Nat.mod_eq_of_lt (a := offset) (by omega), Nat.mod_eq_of_lt (by omega)]
    at value
  have positive : 0 < mbuf.data.toNat + offset := by omega
  exact positive.ne' value

def readByte (mbuf : Mbuf) (offset : Nat) : Handler (BitVec 8) := do
  modify (· ++ [offset])
  return mbuf.memory offset

def readBytes (mbuf : Mbuf) (offset count : Nat) : Handler (List (BitVec 8)) :=
  (List.range count).mapM fun index => mbuf.readByte (offset + index)

def readBe16 (mbuf : Mbuf) (offset : Nat) : Handler (BitVec 16) := do
  let high ← mbuf.readByte offset
  let low ← mbuf.readByte (offset + 1)
  return high ++ low

theorem run_readByte {Result : Type} (mbuf : Mbuf) (offset : Nat)
    (next : BitVec 8 → Handler Result) (reads : List Nat) :
    (mbuf.readByte offset >>= next).run reads =
      (next (mbuf.memory offset)).run (reads ++ [offset]) := rfl

theorem run_readBe16 {Result : Type} (mbuf : Mbuf) (offset : Nat)
    (next : BitVec 16 → Handler Result) (reads : List Nat) :
    (mbuf.readBe16 offset >>= next).run reads =
      (next (mbuf.memory offset ++ mbuf.memory (offset + 1))).run
        (reads ++ [offset] ++ [offset + 1]) := rfl

def readBe32 (mbuf : Mbuf) (offset : Nat) : Handler (BitVec 32) := do
  let high ← mbuf.readBe16 offset
  let low ← mbuf.readBe16 (offset + 2)
  return high ++ low

theorem run_mapM_readByte (mbuf : Mbuf) (offset : Nat) (indices reads : List Nat) :
    (indices.mapM fun index => mbuf.readByte (offset + index)).run reads =
      (indices.map fun index => mbuf.memory (offset + index),
        reads ++ indices.map fun index => offset + index) := by
  induction indices generalizing reads with
  | nil => rw [List.map_nil, List.map_nil, List.append_nil]; rfl
  | cons index rest induction =>
      rw [List.mapM_cons, run_readByte, StateT.run_bind, induction,
        List.map_cons, List.map_cons]
      exact Prod.ext rfl (List.append_assoc _ _ _)

theorem run_readBytes {Result : Type} (mbuf : Mbuf) (offset count : Nat)
    (next : List (BitVec 8) → Handler Result) (reads : List Nat) :
    (mbuf.readBytes offset count >>= next).run reads =
      (next ((List.range count).map fun index =>
        mbuf.memory (offset + index))).run
        (reads ++ (List.range count).map fun index => offset + index) := by
  rw [StateT.run_bind, readBytes, run_mapM_readByte]
  rfl

theorem run_readBe32 {Result : Type} (mbuf : Mbuf) (offset : Nat)
    (next : BitVec 32 → Handler Result) (reads : List Nat) :
    (mbuf.readBe32 offset >>= next).run reads =
      (next (mbuf.memory offset ++ mbuf.memory (offset + 1) ++
        (mbuf.memory (offset + 2) ++ mbuf.memory (offset + 3)))).run
        (reads ++ [offset] ++ [offset + 1] ++ [offset + 2] ++ [offset + 3]) :=
  rfl

end Mbuf

/-! ## Text -/

/-- `%02x` -/
def hexByte (byte : BitVec 8) : List Char :=
  [Nat.digitChar (byte.toNat / 16), Nat.digitChar (byte.toNat % 16)]

def convertMacToStr (mac : List (BitVec 8)) : List Char :=
  [':'].intercalate (mac.map hexByte)

/-- The lowest byte comes first. -/
def convertIpToStr (ipv4 : BitVec 32) : List Char :=
  dottedQuad (lane ipv4 0) (lane ipv4 1) (lane ipv4 2) (lane ipv4 3)

theorem convertIpToStr_append (a b c d : BitVec 8) :
    convertIpToStr (a ++ b ++ (c ++ d)) = dottedQuad d c b a := by
  have lanes : lane (a ++ b ++ (c ++ d)) 0 = d ∧
      lane (a ++ b ++ (c ++ d)) 1 = c ∧ lane (a ++ b ++ (c ++ d)) 2 = b ∧
      lane (a ++ b ++ (c ++ d)) 3 = a := by
    refine ⟨?_, ?_, ?_, ?_⟩
    all_goals
      apply BitVec.eq_of_getLsbD_eq
      intro index inside
      simp [lane, inside]
      grind
  simp only [convertIpToStr, lanes]

def convertBinToStr (data : List (BitVec 8)) : List Char :=
  data.flatMap hexByte

/-! ## The handler -/

structure Report where
  threadId : BitVec 16
  etherSrc : List Char
  etherDst : List Char
  etherType : BitVec 16
  ipv4Src : List Char
  ipv4Dst : List Char
  totalLength : BitVec 16
  nextProtoId : BitVec 8
  srcPort : BitVec 16
  dstPort : BitVec 16
  dgramLen : BitVec 16
  payloadLen : BitVec 64
  payload : List Char
  deriving DecidableEq

/-- `%x` -/
def hexadecimal (value : Nat) : List Char := Nat.toDigits 16 value

def Report.lines (report : Report) : List (List (Messages.Field Char)) :=
  [[⟨"Received UDP packet on thread_id ".toList,
      decimal report.threadId.toNat⟩],
    [⟨"  ether_hdr: src=".toList, report.etherSrc⟩,
      ⟨", dst=".toList, report.etherDst⟩,
      ⟨", ether_type=".toList, hexadecimal report.etherType.toNat⟩],
    [⟨"  ipv4_hdr: src=".toList, report.ipv4Src⟩,
      ⟨", dst=".toList, report.ipv4Dst⟩,
      ⟨", total_length=".toList, decimal report.totalLength.toNat⟩,
      ⟨", next_proto_id=".toList, hexadecimal report.nextProtoId.toNat⟩],
    [⟨"  udp_hdr: src_port=".toList, decimal report.srcPort.toNat⟩,
      ⟨", dst_port=".toList, decimal report.dstPort.toNat⟩,
      ⟨", dgram_len=".toList, decimal report.dgramLen.toNat⟩],
    [⟨"  udp_payload (".toList, decimal report.payloadLen.toNat⟩,
      ⟨" bytes): ".toList, report.payload⟩]]

def Report.messages (report : Report) : List (List Char) :=
  report.lines.map Messages.message

inductive Outcome where
  | missing (part : String)
  | nonIpv4
  | nonUdp
  | tooLong (length pktLen : BitVec 64)
  | received (report : Report)
  deriving DecidableEq

def Outcome.status : Outcome → Int
  | .missing _ => -1
  | .nonIpv4 => 0
  | .nonUdp => 0
  | .tooLong _ _ => -1
  | .received _ => 0

def Outcome.message : Outcome → String
  | .missing part => "Failed to get " ++ part
  | .nonIpv4 => "Non-IPv4 packet received, skipping"
  | .nonUdp => "Non-UDP packet received, skipping"
  | .tooLong length pktLen =>
      "UDP payload length exceeds packet length " ++ length.toNat.repr ++
        " > " ++ pktLen.toNat.repr
  | .received _ => ""

def rteEtherTypeIpv4 : BitVec 16 := 0x0800

def ipprotoUdp : BitVec 8 := 17

def sizeofEtherHdr : Nat := 14
def sizeofIpv4Hdr : Nat := 20
def sizeofUdpHdr : Nat := 8

def reportPacket (threadId : BitVec 16) (mbuf : Mbuf)
    (ethHdr ipHdr udpHdr udpPayload : Nat) (payloadLen : BitVec 64) :
    Handler Report := do
  let etherSrc ← mbuf.readBytes (ethHdr + 6) 6
  let etherDst ← mbuf.readBytes ethHdr 6
  let etherType ← mbuf.readBe16 (ethHdr + 12)
  let ipv4Src ← mbuf.readBe32 (ipHdr + 12)
  let ipv4Dst ← mbuf.readBe32 (ipHdr + 16)
  let totalLength ← mbuf.readBe16 (ipHdr + 2)
  let nextProtoId ← mbuf.readByte (ipHdr + 9)
  let srcPort ← mbuf.readBe16 udpHdr
  let dstPort ← mbuf.readBe16 (udpHdr + 2)
  let dgramLen ← mbuf.readBe16 (udpHdr + 4)
  let payload ← mbuf.readBytes udpPayload payloadLen.toNat
  return {
    threadId := threadId
    etherSrc := convertMacToStr etherSrc
    etherDst := convertMacToStr etherDst
    etherType := etherType
    ipv4Src := convertIpToStr ipv4Src
    ipv4Dst := convertIpToStr ipv4Dst
    totalLength := totalLength
    nextProtoId := nextProtoId
    srcPort := srcPort
    dstPort := dstPort
    dgramLen := dgramLen
    payloadLen := payloadLen
    payload := convertBinToStr payload }

def fieldOffsets (fields : List (Nat × Nat)) : List Nat :=
  fields.flatMap fun (offset, size) => (List.range size).map fun index =>
    offset + index

theorem mem_fieldOffsets {fields : List (Nat × Nat)} {byte : Nat} :
    byte ∈ fieldOffsets fields ↔
      ∃ field ∈ fields, field.1 ≤ byte ∧ byte < field.1 + field.2 := by
  rw [fieldOffsets, List.mem_flatMap]
  apply exists_congr
  intro field
  apply and_congr_right
  intro _
  rw [List.mem_map]
  constructor
  · rintro ⟨index, member, rfl⟩
    rw [List.mem_range] at member
    omega
  · intro within
    exact ⟨byte - field.1, List.mem_range.mpr (by omega), by omega⟩

def reportFields (ethHdr ipHdr udpHdr udpPayload payloadLen : Nat) :
    List (Nat × Nat) :=
  [(ethHdr + 6, 6), (ethHdr, 6), (ethHdr + 12, 2), (ipHdr + 12, 4),
    (ipHdr + 16, 4), (ipHdr + 2, 2), (ipHdr + 9, 1), (udpHdr, 2),
    (udpHdr + 2, 2), (udpHdr + 4, 2), (udpPayload, payloadLen)]

theorem reportPacket_reads (threadId : BitVec 16) (mbuf : Mbuf)
    (ethHdr ipHdr udpHdr udpPayload : Nat) (payloadLen : BitVec 64)
    (reads : List Nat) :
    ((reportPacket threadId mbuf ethHdr ipHdr udpHdr udpPayload
        payloadLen).run reads).2 =
      reads ++ fieldOffsets (reportFields ethHdr ipHdr udpHdr udpPayload
        payloadLen.toNat) := by
  rw [reportPacket]
  simp only [Mbuf.run_readBytes, Mbuf.run_readBe32, Mbuf.run_readBe16,
    Mbuf.run_readByte, StateT.run_pure]
  change _ ++ List.map _ _ = _
  simp [fieldOffsets, reportFields, List.range_succ]

theorem reportPacket_lengths (threadId : BitVec 16) (mbuf : Mbuf)
    (ethHdr ipHdr udpHdr udpPayload : Nat) (payloadLen : BitVec 64)
    (reads : List Nat) :
    let report := ((reportPacket threadId mbuf ethHdr ipHdr udpHdr udpPayload
        payloadLen).run reads).1
    report.dgramLen = mbuf.memory (udpHdr + 4) ++ mbuf.memory (udpHdr + 5) ∧
      report.payloadLen = payloadLen := by
  rw [reportPacket]
  simp only [Mbuf.run_readBytes, Mbuf.run_readBe32, Mbuf.run_readBe16,
    Mbuf.run_readByte, StateT.run_pure]
  exact ⟨rfl, rfl⟩

theorem reportPacket_addresses (threadId : BitVec 16) (mbuf : Mbuf)
    (ethHdr ipHdr udpHdr udpPayload : Nat) (payloadLen : BitVec 64)
    (reads : List Nat) :
    let report := ((reportPacket threadId mbuf ethHdr ipHdr udpHdr udpPayload
        payloadLen).run reads).1
    report.ipv4Src = dottedQuad (mbuf.memory (ipHdr + 15))
        (mbuf.memory (ipHdr + 14)) (mbuf.memory (ipHdr + 13))
        (mbuf.memory (ipHdr + 12)) ∧
      report.ipv4Dst = dottedQuad (mbuf.memory (ipHdr + 19))
        (mbuf.memory (ipHdr + 18)) (mbuf.memory (ipHdr + 17))
        (mbuf.memory (ipHdr + 16)) := by
  rw [reportPacket]
  simp only [Mbuf.run_readBytes, Mbuf.run_readBe32, Mbuf.run_readBe16,
    Mbuf.run_readByte, StateT.run_pure]
  exact ⟨convertIpToStr_append _ _ _ _, convertIpToStr_append _ _ _ _⟩

/-- The part of the handler behind its protocol test. The length of the payload
is computed in `size_t` and wraps when the length field is below the size of
its header. -/
def handleUdp (threadId : BitVec 16) (mbuf : Mbuf) (ethHdr ipHdr : Nat) :
    Handler Outcome := do
  let pktLen : BitVec 64 := mbuf.pktLen.setWidth 64
  let udpHdr := ipHdr + sizeofIpv4Hdr
  if mbuf.mtodOffset udpHdr = 0 then
    return .missing "UDP header"
  let dgramLen ← mbuf.readBe16 (udpHdr + 4)
  let udpPayloadLen : BitVec 64 := dgramLen.setWidth 64
  if pktLen < BitVec.ofNat 64 udpHdr + udpPayloadLen then
    return .tooLong (BitVec.ofNat 64 udpHdr + udpPayloadLen) pktLen
  let udpPayload := udpHdr + sizeofUdpHdr
  if mbuf.mtodOffset udpPayload = 0 then
    return .missing "UDP payload"
  let payloadLen := udpPayloadLen - BitVec.ofNat 64 sizeofUdpHdr
  let report ← reportPacket threadId mbuf ethHdr ipHdr udpHdr udpPayload
    payloadLen
  return .received report

def networkPacketHandler (threadId : BitVec 16) (mbuf : Mbuf) :
    Handler Outcome := do
  let ethHdr := 0
  if mbuf.mtodOffset ethHdr = 0 then
    return .missing "Ethernet header"
  let etherType ← mbuf.readBe16 (ethHdr + 12)
  if etherType ≠ rteEtherTypeIpv4 then
    return .nonIpv4
  let ipHdr := ethHdr + sizeofEtherHdr
  if mbuf.mtodOffset ipHdr = 0 then
    return .missing "IPv4 header"
  let nextProtoId ← mbuf.readByte (ipHdr + 9)
  if nextProtoId ≠ ipprotoUdp then
    return .nonUdp
  handleUdp threadId mbuf ethHdr ipHdr

def handled (threadId : BitVec 16) (mbuf : Mbuf) : Outcome :=
  ((networkPacketHandler threadId mbuf).run []).1

def bytesRead (threadId : BitVec 16) (mbuf : Mbuf) : List Nat :=
  ((networkPacketHandler threadId mbuf).run []).2

def Outcome.Skipped (outcome : Outcome) : Prop :=
  outcome = .nonIpv4 ∨ outcome = .nonUdp

theorem Outcome.not_skipped {outcome : Outcome} (ipv4 : outcome ≠ .nonIpv4)
    (udp : outcome ≠ .nonUdp) : ¬ outcome.Skipped := by
  intro skipped
  cases skipped with
  | inl nonIpv4 => exact ipv4 nonIpv4
  | inr nonUdp => exact udp nonUdp

theorem handleUdp_not_skipped (threadId : BitVec 16) (mbuf : Mbuf)
    (ethHdr ipHdr : Nat) (reads : List Nat) :
    ¬ ((handleUdp threadId mbuf ethHdr ipHdr).run reads).1.Skipped := by
  rw [handleUdp]
  split
  · exact Outcome.not_skipped nofun nofun
  · rw [Mbuf.run_readBe16]
    dsimp only
    split
    · exact Outcome.not_skipped nofun nofun
    · split
      · exact Outcome.not_skipped nofun nofun
      · exact Outcome.not_skipped nofun nofun

/-- The headers are tested one after the other, each as soon as it is read. -/
theorem networkPacketHandler_run (threadId : BitVec 16) (mbuf : Mbuf) :
    (networkPacketHandler threadId mbuf).run [] =
      if mbuf.memory 12 ++ mbuf.memory 13 ≠ rteEtherTypeIpv4 then
        (.nonIpv4, [12, 13])
      else if mbuf.memory 23 ≠ ipprotoUdp then (.nonUdp, [12, 13, 23])
      else (handleUdp threadId mbuf 0 14).run [12, 13, 23] := by
  have ethHdr : mbuf.mtodOffset 0 ≠ 0 := mbuf.mtodOffset_ne_zero (by decide)
  have ipHdr : mbuf.mtodOffset (0 + sizeofEtherHdr) ≠ 0 :=
    mbuf.mtodOffset_ne_zero (by decide)
  have protocol : 0 + sizeofEtherHdr + 9 = 23 := rfl
  rw [networkPacketHandler, if_neg ethHdr, Mbuf.run_readBe16, Nat.zero_add]
  split
  · rfl
  · rw [if_neg ipHdr, Mbuf.run_readByte, protocol]
    split
    · rfl
    · rfl

theorem handled_eq (threadId : BitVec 16) (mbuf : Mbuf) :
    handled threadId mbuf =
      if mbuf.memory 12 ++ mbuf.memory 13 ≠ rteEtherTypeIpv4 then .nonIpv4
      else if mbuf.memory 23 ≠ ipprotoUdp then .nonUdp
      else ((handleUdp threadId mbuf 0 14).run [12, 13, 23]).1 := by
  rw [handled, networkPacketHandler_run]
  split
  · rfl
  · split
    · rfl
    · rfl

theorem handled_skipped_iff (threadId : BitVec 16) (mbuf : Mbuf) :
    (handled threadId mbuf).Skipped ↔
      ¬ (mbuf.memory 12 ++ mbuf.memory 13 = rteEtherTypeIpv4 ∧
        mbuf.memory 23 = ipprotoUdp) := by
  rw [handled_eq, not_and_or]
  split
  · next notIpv4 => exact ⟨fun _ => .inl notIpv4, fun _ => .inl rfl⟩
  · next isIpv4 =>
      rw [not_not] at isIpv4
      split
      · next notUdp => exact ⟨fun _ => .inr notUdp, fun _ => .inr rfl⟩
      · next isUdp =>
          rw [not_not] at isUdp
          have accepted := handleUdp_not_skipped threadId mbuf 0 14 [12, 13, 23]
          exact ⟨fun skipped => absurd skipped accepted,
            fun failed => failed.elim (absurd isIpv4) (absurd isUdp)⟩

/-! ## Addresses -/

/-- The field `src_addr`, as a little-endian host loads it. -/
def Mbuf.srcAddr (mbuf : Mbuf) : BitVec 32 :=
  mbuf.memory 29 ++ mbuf.memory 28 ++ mbuf.memory 27 ++ mbuf.memory 26

def Mbuf.dstAddr (mbuf : Mbuf) : BitVec 32 :=
  mbuf.memory 33 ++ mbuf.memory 32 ++ mbuf.memory 31 ++ mbuf.memory 30

/-! ## Lengths -/

def Mbuf.dgramLen (mbuf : Mbuf) : BitVec 16 :=
  mbuf.memory 38 ++ mbuf.memory 39

def Mbuf.payloadLen (mbuf : Mbuf) : BitVec 64 :=
  mbuf.dgramLen.setWidth 64 - BitVec.ofNat 64 sizeofUdpHdr

theorem Mbuf.pktLen_lt_iff (mbuf : Mbuf) :
    mbuf.pktLen.setWidth 64 < BitVec.ofNat 64 34 + mbuf.dgramLen.setWidth 64 ↔
      mbuf.pktLen.toNat < 34 + mbuf.dgramLen.toNat := by
  have small := mbuf.dgramLen.isLt
  rw [BitVec.lt_def, BitVec.toNat_add, BitVec.toNat_setWidth,
    BitVec.toNat_setWidth, BitVec.toNat_ofNat,
    Nat.mod_eq_of_lt (mbuf.pktLen.isLt.trans (by decide)),
    Nat.mod_eq_of_lt (a := mbuf.dgramLen.toNat) (by omega),
    Nat.mod_eq_of_lt (a := 34) (by decide), Nat.mod_eq_of_lt (by omega)]

/-- The size check compares the length field with the length of the packet. A
packet that passes it is reported whatever else the length field says. -/
theorem handleUdp_run (threadId : BitVec 16) (mbuf : Mbuf) (reads : List Nat) :
    (handleUdp threadId mbuf 0 14).run reads =
      if mbuf.pktLen.toNat < 34 + mbuf.dgramLen.toNat then
        (.tooLong (BitVec.ofNat 64 34 + mbuf.dgramLen.setWidth 64)
          (mbuf.pktLen.setWidth 64), reads ++ [38] ++ [39])
      else
        let reported := (reportPacket threadId mbuf 0 14 34 42
          mbuf.payloadLen).run (reads ++ [38] ++ [39])
        (.received reported.1, reported.2) := by
  have udpHdr : mbuf.mtodOffset (14 + sizeofIpv4Hdr) ≠ 0 :=
    mbuf.mtodOffset_ne_zero (by decide)
  have udpPayload : mbuf.mtodOffset (14 + sizeofIpv4Hdr + sizeofUdpHdr) ≠ 0 :=
    mbuf.mtodOffset_ne_zero (by decide)
  rw [handleUdp, if_neg udpHdr, Mbuf.run_readBe16]
  by_cases exceeds : mbuf.pktLen.toNat < 34 + mbuf.dgramLen.toNat
  · rw [if_pos exceeds]
    exact congrArg (fun next => StateT.run next _)
      (if_pos (mbuf.pktLen_lt_iff.mpr exceeds))
  · rw [if_neg exceeds]
    refine (congrArg (fun next => StateT.run next _)
      (if_neg (mbuf.pktLen_lt_iff.not.mpr exceeds))).trans ?_
    rw [if_neg udpPayload]
    rfl

end PacketFilter.Software
