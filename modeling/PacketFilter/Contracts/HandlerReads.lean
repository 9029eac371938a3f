import PacketFilter.Software.PacketHandler

/-! # Reads of the packet handler

The handler trusts the length fields of the packet. This file says on which
packets its reads stay inside the first segment.
-/

namespace PacketFilter.Contracts

open Software

/-- The first segment of a received packet. It holds all bytes of the packet
when there is no other. -/
structure FirstSegment (mbuf : Mbuf) where
  dataLen : BitVec 16
  within : dataLen.toNat ≤ mbuf.pktLen.toNat

def ReadsInside (threadId : BitVec 16) (mbuf : Mbuf)
    (segment : FirstSegment mbuf) : Prop :=
  ∀ byte ∈ bytesRead threadId mbuf, byte < segment.dataLen.toNat

def PayloadCounted (threadId : BitVec 16) (mbuf : Mbuf) : Prop :=
  ∀ report, handled threadId mbuf = .received report →
    report.payloadLen.toNat + sizeofUdpHdr = report.dgramLen.toNat

def ShowsIpv4 (mbuf : Mbuf) : Prop :=
  mbuf.memory 12 ++ mbuf.memory 13 = rteEtherTypeIpv4

def ShowsUdp (mbuf : Mbuf) : Prop := mbuf.memory 23 = ipprotoUdp

instance (mbuf : Mbuf) : Decidable (ShowsIpv4 mbuf) :=
  inferInstanceAs (Decidable (_ = _))

instance (mbuf : Mbuf) : Decidable (ShowsUdp mbuf) :=
  inferInstanceAs (Decidable (_ = _))

/-- The segment holds every header that the handler gets to, and the payload
whose length the packet advertises. -/
def HeadersHeld (mbuf : Mbuf) (dataLen : Nat) : Prop :=
  14 ≤ dataLen ∧
    (ShowsIpv4 mbuf → 24 ≤ dataLen ∧
      (ShowsUdp mbuf → 40 ≤ dataLen ∧
        (34 + mbuf.dgramLen.toNat ≤ mbuf.pktLen.toNat →
          8 ≤ mbuf.dgramLen.toNat ∧
            (8 < mbuf.dgramLen.toNat → 34 + mbuf.dgramLen.toNat ≤ dataLen))))

/-! ## The bytes of each case -/

theorem forall_mem_headers_iff {offsets : List Nat} {dataLen last : Nat}
    (member : last ∈ offsets) (highest : ∀ byte ∈ offsets, byte ≤ last) :
    (∀ byte ∈ offsets, byte < dataLen) ↔ last + 1 ≤ dataLen :=
  ⟨fun inside => inside last member,
    fun held byte inOffsets => (highest byte inOffsets).trans_lt held⟩

theorem payloadLen_toNat {mbuf : Mbuf} (covers : 8 ≤ mbuf.dgramLen.toNat) :
    mbuf.payloadLen.toNat = mbuf.dgramLen.toNat - 8 := by
  have small := mbuf.dgramLen.isLt
  have size : sizeofUdpHdr = 8 := rfl
  rw [Mbuf.payloadLen, size, BitVec.toNat_sub, BitVec.toNat_setWidth,
    BitVec.toNat_ofNat]
  omega

theorem payloadLen_add_iff (mbuf : Mbuf) :
    mbuf.payloadLen.toNat + sizeofUdpHdr = mbuf.dgramLen.toNat ↔
      8 ≤ mbuf.dgramLen.toNat := by
  have size : sizeofUdpHdr = 8 := rfl
  constructor
  · intro counted
    omega
  · intro covers
    rw [payloadLen_toNat covers]
    omega

theorem report_inside_iff (mbuf : Mbuf) (covers : 8 ≤ mbuf.dgramLen.toNat)
    (dataLen : Nat) :
    (∀ byte ∈ [12, 13, 23] ++ [38] ++ [39] ++ fieldOffsets
        (reportFields 0 14 34 42 mbuf.payloadLen.toNat), byte < dataLen) ↔
      40 ≤ dataLen ∧
        (8 < mbuf.dgramLen.toNat → 34 + mbuf.dgramLen.toNat ≤ dataLen) := by
  have length := payloadLen_toNat covers
  constructor
  · intro inside
    constructor
    · exact inside 39 (by simp)
    · intro payload
      have last : 33 + mbuf.dgramLen.toNat ∈ fieldOffsets
          (reportFields 0 14 34 42 mbuf.payloadLen.toNat) :=
        mem_fieldOffsets.mpr ⟨(42, mbuf.payloadLen.toNat),
          by simp [reportFields], by simp only; omega⟩
      have below := inside _ (List.mem_append_right _ last)
      omega
  · intro held byte member
    rcases held with ⟨headers, payload⟩
    rcases List.mem_append.mp member with fixed | reported
    · simp at fixed
      omega
    · rcases mem_fieldOffsets.mp reported with ⟨field, inReport, above, below⟩
      simp only [reportFields, List.mem_cons, List.not_mem_nil, or_false]
        at inReport
      rcases inReport with rfl | rfl | rfl | rfl | rfl | rfl | rfl | rfl | rfl |
        rfl | rfl <;> simp only at above below <;> omega

theorem run_of_not_ipv4 (threadId : BitVec 16) {mbuf : Mbuf}
    (other : ¬ ShowsIpv4 mbuf) :
    (networkPacketHandler threadId mbuf).run [] = (.nonIpv4, [12, 13]) := by
  rw [networkPacketHandler_run]
  exact if_pos other

theorem run_of_not_udp (threadId : BitVec 16) {mbuf : Mbuf}
    (ipv4 : ShowsIpv4 mbuf) (other : ¬ ShowsUdp mbuf) :
    (networkPacketHandler threadId mbuf).run [] = (.nonUdp, [12, 13, 23]) := by
  rw [networkPacketHandler_run]
  exact (if_neg (not_not.mpr ipv4)).trans (if_pos other)

theorem run_of_udp (threadId : BitVec 16) {mbuf : Mbuf}
    (ipv4 : ShowsIpv4 mbuf) (udp : ShowsUdp mbuf) :
    (networkPacketHandler threadId mbuf).run [] =
      (handleUdp threadId mbuf 0 14).run [12, 13, 23] := by
  rw [networkPacketHandler_run]
  exact (if_neg (not_not.mpr ipv4)).trans (if_neg (not_not.mpr udp))

/-- A run that reports nothing computes no payload length. -/
theorem inside_iff_of_unreported {threadId : BitVec 16} {mbuf : Mbuf}
    {outcome : Outcome} {offsets : List Nat}
    (ran : (networkPacketHandler threadId mbuf).run [] = (outcome, offsets))
    (unreported : ∀ report, outcome ≠ .received report)
    (segment : FirstSegment mbuf) (last : Nat) (member : last ∈ offsets)
    (highest : ∀ byte ∈ offsets, byte ≤ last) :
    ReadsInside threadId mbuf segment ∧ PayloadCounted threadId mbuf ↔
      last + 1 ≤ segment.dataLen.toNat := by
  rw [ReadsInside, PayloadCounted, bytesRead, handled, ran]
  rw [forall_mem_headers_iff member highest]
  exact and_iff_left fun report isReport => absurd isReport (unreported report)

theorem inside_iff_of_reported {threadId : BitVec 16} {mbuf : Mbuf}
    (ipv4 : ShowsIpv4 mbuf) (udp : ShowsUdp mbuf)
    (fits : 34 + mbuf.dgramLen.toNat ≤ mbuf.pktLen.toNat)
    (segment : FirstSegment mbuf) :
    ReadsInside threadId mbuf segment ∧ PayloadCounted threadId mbuf ↔
      40 ≤ segment.dataLen.toNat ∧ 8 ≤ mbuf.dgramLen.toNat ∧
        (8 < mbuf.dgramLen.toNat →
          34 + mbuf.dgramLen.toNat ≤ segment.dataLen.toNat) := by
  have lengths := reportPacket_lengths threadId mbuf 0 14 34 42 mbuf.payloadLen
    ([12, 13, 23] ++ [38] ++ [39])
  have reads := reportPacket_reads threadId mbuf 0 14 34 42 mbuf.payloadLen
    ([12, 13, 23] ++ [38] ++ [39])
  rw [ReadsInside, PayloadCounted, bytesRead, handled,
    run_of_udp threadId ipv4 udp, handleUdp_run, if_neg (not_lt.mpr fits)]
  simp only [reads, Outcome.received.injEq, forall_eq', lengths.1, lengths.2]
  change _ ∧ mbuf.payloadLen.toNat + sizeofUdpHdr = mbuf.dgramLen.toNat ↔ _
  rw [payloadLen_add_iff]
  constructor
  · intro both
    rcases both with ⟨inside, covers⟩
    have held := (report_inside_iff mbuf covers _).mp inside
    exact ⟨held.1, covers, held.2⟩
  · intro held
    rcases held with ⟨headers, covers, payload⟩
    exact ⟨(report_inside_iff mbuf covers _).mpr ⟨headers, payload⟩, covers⟩

/-- The handler stays inside the first segment, and the length of the payload
does not wrap, exactly on the packets whose first segment holds what the
handler gets to. -/
theorem reads_inside_iff (threadId : BitVec 16) (mbuf : Mbuf)
    (segment : FirstSegment mbuf) :
    ReadsInside threadId mbuf segment ∧ PayloadCounted threadId mbuf ↔
      HeadersHeld mbuf segment.dataLen.toNat := by
  rw [HeadersHeld]
  by_cases ipv4 : ShowsIpv4 mbuf
  · by_cases udp : ShowsUdp mbuf
    · by_cases fits : 34 + mbuf.dgramLen.toNat ≤ mbuf.pktLen.toNat
      · rw [inside_iff_of_reported ipv4 udp fits]
        simp only [ipv4, udp, fits, true_implies]
        omega
      · have ran := run_of_udp threadId ipv4 udp
        rw [handleUdp_run, if_pos (not_le.mp fits)] at ran
        rw [inside_iff_of_unreported ran nofun segment 39 (by simp) (by simp)]
        simp only [ipv4, udp, fits, true_implies, false_implies, and_true]
        omega
    · rw [inside_iff_of_unreported (run_of_not_udp threadId ipv4 udp) nofun
        segment 23 (by simp) (by simp)]
      simp only [ipv4, udp, true_implies, false_implies, and_true]
      omega
  · rw [inside_iff_of_unreported (run_of_not_ipv4 threadId ipv4) nofun segment
      13 (by simp) (by simp)]
    simp only [ipv4, false_implies, and_true]

/-- An IPv4 packet of 60 bytes with UDP, whose length field says 0. -/
def emptyDatagram : Mbuf where
  pktLen := 60
  data := 0x2000
  memory byte := if byte = 12 then 0x08 else if byte = 23 then 17 else 0
  inMemory := by decide

/-- The length of the payload wraps, and the handler reads on behind the
packet. -/
theorem not_reads_inside :
    ¬ ∀ (threadId : BitVec 16) (mbuf : Mbuf) (segment : FirstSegment mbuf),
      ReadsInside threadId mbuf segment ∧ PayloadCounted threadId mbuf := by
  intro inside
  have reads := inside 0 emptyDatagram ⟨60, by decide⟩
  have held := (inside_iff_of_reported (by decide) (by decide) (by decide)
    _).mp reads
  exact absurd held.2.1 (by decide)

end PacketFilter.Contracts
