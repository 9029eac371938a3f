import PacketFilter.Contracts.FilterStrings
import PacketFilter.Contracts.HandlerReads

/-! # Logged addresses

The handler puts the addresses of a packet into host byte order and then
formats them lowest byte first, while the filter strings are read in network
byte order. The two agree on addresses that read the same backwards.
-/

namespace PacketFilter.Contracts

open ByteLanes CText Software

/-- `sprintf` writes the text and the character that ends it. -/
def FitsBuffer (text : List Char) : Prop := text.length + 1 ≤ 16

/-- A report shows the addresses of the packet in the notation of the filter
strings. -/
structure ReadsBack (mbuf : Mbuf) (report : Report) : Prop where
  source : inetAddr report.ipv4Src = mbuf.srcAddr
  destination : inetAddr report.ipv4Dst = mbuf.dstAddr
  filter : ∀ (a b c d : BitVec 8) (portStr : List Char) (port : BitVec 16),
    parseNetAddr (dottedQuad a b c d ++ ':' :: portStr) =
      .ok (mbuf.dstAddr, port) → report.ipv4Dst = dottedQuad a b c d
  buffer : FitsBuffer report.ipv4Src ∧ FitsBuffer report.ipv4Dst

def Reportable (mbuf : Mbuf) : Prop :=
  ShowsIpv4 mbuf ∧ ShowsUdp mbuf ∧
    34 + mbuf.dgramLen.toNat ≤ mbuf.pktLen.toNat

def Palindromic (mbuf : Mbuf) : Prop :=
  (mbuf.memory 26 = mbuf.memory 29 ∧ mbuf.memory 27 = mbuf.memory 28) ∧
    mbuf.memory 30 = mbuf.memory 33 ∧ mbuf.memory 31 = mbuf.memory 32

theorem dottedQuad_reversed_iff (a b c d : BitVec 8) :
    inetAddr (dottedQuad d c b a) = d ++ c ++ b ++ a ↔ a = d ∧ b = c := by
  rw [inetAddr_dottedQuad, append_inj, append_inj, append_inj]
  grind

theorem parsed_dottedQuad {a b c d : BitVec 8} {portStr : List Char}
    {ip : BitVec 32} {port : BitVec 16}
    (parsed : parseNetAddr (dottedQuad a b c d ++ ':' :: portStr) =
      .ok (ip, port)) : ip = d ++ c ++ b ++ a := by
  have absent : ':' ∉ dottedQuad a b c d :=
    fun member => absurd (of_mem_dottedQuad member) (by decide)
  rw [parseNetAddr_split absent, inetAddr_dottedQuad] at parsed
  split at parsed
  · cases parsed
  · split at parsed
    · cases parsed
    · split at parsed
      · cases parsed
      · exact (congrArg Prod.fst (Except.ok.inj parsed)).symm

theorem readsBack_iff {mbuf : Mbuf} {report : Report}
    (source : report.ipv4Src = dottedQuad (mbuf.memory 29) (mbuf.memory 28)
      (mbuf.memory 27) (mbuf.memory 26))
    (destination : report.ipv4Dst = dottedQuad (mbuf.memory 33)
      (mbuf.memory 32) (mbuf.memory 31) (mbuf.memory 30)) :
    ReadsBack mbuf report ↔ Palindromic mbuf := by
  constructor
  · intro reads
    have first := reads.source
    have second := reads.destination
    rw [source, Mbuf.srcAddr, dottedQuad_reversed_iff] at first
    rw [destination, Mbuf.dstAddr, dottedQuad_reversed_iff] at second
    exact ⟨first, second⟩
  · intro palindromic
    rcases palindromic with ⟨first, second⟩
    refine ⟨?_, ?_, ?_, ?_⟩
    · rw [source, Mbuf.srcAddr, dottedQuad_reversed_iff]
      exact first
    · rw [destination, Mbuf.dstAddr, dottedQuad_reversed_iff]
      exact second
    · intro a b c d portStr port parsed
      have isIp := parsed_dottedQuad parsed
      rw [Mbuf.dstAddr, append_inj, append_inj, append_inj] at isIp
      rw [destination]
      grind
    · rw [source, destination]
      exact ⟨Nat.succ_le_succ (length_dottedQuad _ _ _ _),
        Nat.succ_le_succ (length_dottedQuad _ _ _ _)⟩

theorem handled_of_reportable (threadId : BitVec 16) {mbuf : Mbuf}
    (reportable : Reportable mbuf) :
    handled threadId mbuf = .received ((reportPacket threadId mbuf 0 14 34 42
      mbuf.payloadLen).run ([12, 13, 23] ++ [38] ++ [39])).1 := by
  rcases reportable with ⟨ipv4, udp, fits⟩
  rw [handled, run_of_udp threadId ipv4 udp, handleUdp_run,
    if_neg (not_lt.mpr fits)]

theorem reportable_of_handled {threadId : BitVec 16} {mbuf : Mbuf}
    {report : Report} (received : handled threadId mbuf = .received report) :
    Reportable mbuf := by
  rw [handled] at received
  by_cases ipv4 : ShowsIpv4 mbuf
  · by_cases udp : ShowsUdp mbuf
    · rw [run_of_udp threadId ipv4 udp, handleUdp_run] at received
      by_cases tooLong : mbuf.pktLen.toNat < 34 + mbuf.dgramLen.toNat
      · rw [if_pos tooLong] at received
        cases received
      · exact ⟨ipv4, udp, not_lt.mp tooLong⟩
    · rw [run_of_not_udp threadId ipv4 udp] at received
      cases received
  · rw [run_of_not_ipv4 threadId ipv4] at received
    cases received

theorem readsBack_iff_palindromic {threadId : BitVec 16} {mbuf : Mbuf}
    {report : Report} (received : handled threadId mbuf = .received report) :
    ReadsBack mbuf report ↔ Palindromic mbuf := by
  have addresses := reportPacket_addresses threadId mbuf 0 14 34 42
    mbuf.payloadLen ([12, 13, 23] ++ [38] ++ [39])
  rw [handled_of_reportable threadId (reportable_of_handled received)]
    at received
  rcases Outcome.received.inj received with rfl
  exact readsBack_iff addresses.1 addresses.2

/-- What the handler logs of a packet reads back exactly when the addresses of
the packet are palindromes. -/
theorem addresses_read_back_iff (threadId : BitVec 16) (mbuf : Mbuf) :
    (∀ report, handled threadId mbuf = .received report →
        ReadsBack mbuf report) ↔
      (Reportable mbuf → Palindromic mbuf) := by
  constructor
  · intro reads reportable
    have received := handled_of_reportable threadId reportable
    exact (readsBack_iff_palindromic received).mp (reads _ received)
  · intro palindromic report received
    exact (readsBack_iff_palindromic received).mpr
      (palindromic (reportable_of_handled received))

def plainDatagram : Mbuf where
  pktLen := 60
  data := 0x4000
  memory
    | 12 => 0x08
    | 23 => 17
    | 26 | 30 => 192
    | 27 | 31 => 168
    | 28 | 32 => 2
    | 29 => 10
    | 33 => 1
    | 39 => 8
    | _ => 0
  inMemory := by decide

/-- Its destination is logged as 1.2.168.192. -/
theorem not_addresses_read_back :
    ¬ ∀ (threadId : BitVec 16) (mbuf : Mbuf) (report : Report),
      handled threadId mbuf = .received report → ReadsBack mbuf report := by
  intro reads
  have reportable : Reportable plainDatagram :=
    ⟨by decide, by decide, by decide⟩
  have received := handled_of_reportable 0 reportable
  have palindromic := (readsBack_iff_palindromic received).mp
    (reads 0 plainDatagram _ received)
  exact absurd palindromic.2.1 (by decide)

end PacketFilter.Contracts
