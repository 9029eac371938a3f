import Mathlib.Data.BitVec

/-! # Statistics reports

What `PacketFilter::show_stats` and `PacketAdapter::show_stats` read from the
device and what they print.
-/

namespace PacketFilter.Software

/-! ## Statistics registers -/

def statsPktInReg : BitVec 32 := 0x28
def statsPhitInReg : BitVec 32 := 0x40
def statsPktForwdReg : BitVec 32 := 0x58
def statsPktDropReg : BitVec 32 := 0x70

structure StatsReport where
  pktIn : BitVec 64
  phitIn : BitVec 64
  pktForwd : BitVec 64
  pktDrop : BitVec 64
  deriving DecidableEq

def printStat (str : String) (val : BitVec 64) : List (String × BitVec 64) :=
  if 0 < val ∧ val ≠ -1 then [(str, val)] else []

def StatsReport.lines (report : StatsReport) : List (String × BitVec 64) :=
  printStat "  Packets In:        %lu" report.pktIn ++
    printStat "  Phits In:          %lu" report.phitIn ++
    printStat "  Packets Forwarded: %lu" report.pktForwd ++
    printStat "  Packets Dropped:   %lu" report.pktDrop

/-- `show_stats` over any way of reading a 64-bit register. It stays silent
while no packet has been counted. -/
def showStats {m : Type → Type u} [Monad m]
    (read : BitVec 32 → m (BitVec 64)) : m (Option StatsReport) := do
  let pktIn ← read statsPktInReg
  let phitIn ← read statsPhitInReg
  let pktForwd ← read statsPktForwdReg
  let pktDrop ← read statsPktDropReg
  if pktIn = 0 ∧ pktForwd = 0 ∧ pktDrop = 0 then
    return none
  return some ⟨pktIn, phitIn, pktForwd, pktDrop⟩

/-! ## Packet adapter -/

def opennicAdapBaseAddr : BitVec 32 := 0xB000

def txPacketSentReg : BitVec 32 := 0x00
def txPacketDroppedReg : BitVec 32 := 0x10
def rxPacketRecvReg : BitVec 32 := 0x20
def rxPacketDroppedReg : BitVec 32 := 0x30
def rxPacketErrorReg : BitVec 32 := 0x40

structure AdapterReport where
  txPacketSent : BitVec 64
  txPacketDropped : BitVec 64
  rxPacketRecv : BitVec 64
  rxPacketDropped : BitVec 64
  rxPacketError : BitVec 64
  deriving DecidableEq

def AdapterReport.lines (report : AdapterReport) : List (String × BitVec 64) :=
  printStat "  TX Packets Sent:        %lu" report.txPacketSent ++
    printStat "  TX Packets Dropped:     %lu" report.txPacketDropped ++
    printStat "  RX Packets Received:    %lu" report.rxPacketRecv ++
    printStat "  RX Packets Dropped:     %lu" report.rxPacketDropped ++
    printStat "  RX Packets Error:       %lu" report.rxPacketError

/-- `PacketAdapter::show_stats`. It stays silent while nothing has been received
or sent, whatever has been dropped. -/
def showAdapterStats {m : Type → Type u} [Monad m]
    (read : BitVec 32 → m (BitVec 64)) : m (Option AdapterReport) := do
  let txPacketSent ← read txPacketSentReg
  let txPacketDropped ← read txPacketDroppedReg
  let rxPacketRecv ← read rxPacketRecvReg
  let rxPacketDropped ← read rxPacketDroppedReg
  let rxPacketError ← read rxPacketErrorReg
  if rxPacketRecv = 0 ∧ txPacketSent = 0 then
    return none
  return some ⟨txPacketSent, txPacketDropped, rxPacketRecv, rxPacketDropped,
    rxPacketError⟩

end PacketFilter.Software
