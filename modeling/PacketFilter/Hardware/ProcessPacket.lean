import PacketFilter.Foundation.Mealy
import PacketFilter.Hardware.Hash
import PacketFilter.Hardware.Network

/-! # process_packet

One invocation of the pipelined function. It either serves the configuration
ports because no phit waits, or it consumes one phit.
-/

namespace PacketFilter.Hardware

/-- One phit: the part of a packet that fits in the width of the data bus. The
function neither reads nor sets the strobe of `ap_axiu<512, 48, 0, 0>`. -/
structure Axis250 where
  data : BitVec 512
  keep : BitVec 64
  user : BitVec 48
  last : Bool
  deriving DecidableEq

@[ext]
structure Statistics where
  pktIn : BitVec 64
  phitIn : BitVec 64
  pktForward : BitVec 64
  pktDrop : BitVec 64
  deriving DecidableEq

def Statistics.initial : Statistics := ⟨0, 0, 0, 0⟩

/-- The configuration ports. An action is 0 for drop and 1 for forward. -/
structure Config where
  ipv4Addr : BitVec 32
  udpPort : BitVec 16
  action : BitVec 8
  deriving DecidableEq

structure Ports where
  sAxis : List Axis250
  mAxis : List Axis250
  stats : Statistics

structure Statics where
  hashTable : ToeplitzHash
  localStats : Statistics
  phitIdx : BitVec 32
  network : NetworkPacket

def Statics.initial : Statics where
  hashTable := .initial
  localStats := .initial
  phitIdx := 0
  network := .initial

def tableAction (hashTable : ToeplitzHash) (network : NetworkPacket) :
    BitVec 32 :=
  match network.targetAddress with
  | some (destIp, destPort) => hashTable.lookup destIp destPort
  | none => 0

/-- The statistics update behind the last phit of a packet. `phit_idx` has
been reset by then. -/
def Statistics.countPacket (stats : Statistics) (phitIdx tableAction : BitVec 32) :
    Statistics where
  pktIn := stats.pktIn + 1
  phitIn := stats.phitIn + (phitIdx + 1).signExtend 64
  pktForward :=
    if tableAction = 1 then stats.pktForward + 1 else stats.pktForward
  pktDrop := if tableAction = 1 then stats.pktDrop else stats.pktDrop + 1

/-- `phit_idx` is a signed `int`: an increment past `2 ^ 31 - 1` is undefined
in the source and wraps here. -/
def processPacket (config : Config) (ports : Ports) (statics : Statics) :
    Ports × Statics :=
  match ports.sAxis with
  | [] =>
      ({ ports with stats := statics.localStats },
        { statics with
            hashTable := statics.hashTable.insert config.ipv4Addr
              config.udpPort (config.action.setWidth 32) })
  | incomingPhit :: waiting =>
      let network :=
        statics.network.deserialize incomingPhit.data statics.phitIdx
      let action := tableAction statics.hashTable network
      let outgoingPhit : Axis250 :=
        { data := incomingPhit.data
          keep := incomingPhit.keep
          user := incomingPhit.user
          last := incomingPhit.last }
      let mAxis :=
        if action = 1 then ports.mAxis ++ [outgoingPhit] else ports.mAxis
      let phitIdx := if incomingPhit.last then 0 else statics.phitIdx + 1
      let localStats :=
        if incomingPhit.last then statics.localStats.countPacket phitIdx action
        else statics.localStats
      ({ ports with sAxis := waiting, mAxis := mAxis },
        { statics with
            localStats := localStats
            phitIdx := phitIdx
            network := network })

/-! ## Runs -/

/-- One invocation: the values on the configuration ports and the phit that
waits, if any. The invocation is idle when none does. -/
structure Invocation where
  config : Config
  sAxis : Option Axis250
  deriving DecidableEq

def idleConfigs (history : List Invocation) : List Config :=
  history.filterMap fun invocation =>
    if invocation.sAxis.isNone then some invocation.config else none

theorem idleConfigs_append (earlier later : List Invocation) :
    idleConfigs (earlier ++ later) = idleConfigs earlier ++ idleConfigs later :=
  List.filterMap_append

structure Device where
  statics : Statics
  stats : Statistics

def Device.initial : Device where
  statics := .initial
  stats := .initial

def hardware : Mealy Device Invocation (List Axis250) where
  step device invocation :=
    let result := processPacket invocation.config
      ⟨invocation.sAxis.toList, [], device.stats⟩ device.statics
    (⟨result.2, result.1.stats⟩, result.1.mAxis)

def writtenToMAxis (run : List Invocation) : List Axis250 :=
  (hardware.outputs Device.initial run).flatten

theorem hardware_step_idle (device : Device) (config : Config) :
    hardware.step device ⟨config, none⟩ =
      ({ statics :=
          { device.statics with
              hashTable := device.statics.hashTable.insert config.ipv4Addr
                config.udpPort (config.action.setWidth 32) }
         stats := device.statics.localStats }, []) := rfl

def Statics.networkAt (statics : Statics) (phit : Axis250) : NetworkPacket :=
  statics.network.deserialize phit.data statics.phitIdx

def Statics.actionAt (statics : Statics) (phit : Axis250) : BitVec 32 :=
  tableAction statics.hashTable (statics.networkAt phit)

theorem hardware_step_phit (device : Device) (config : Config)
    (phit : Axis250) :
    hardware.step device ⟨config, some phit⟩ =
      ({ statics :=
          { hashTable := device.statics.hashTable
            localStats :=
              if phit.last then
                device.statics.localStats.countPacket 0
                  (device.statics.actionAt phit)
              else device.statics.localStats
            phitIdx := if phit.last then 0 else device.statics.phitIdx + 1
            network := device.statics.networkAt phit }
         stats := device.stats },
        if device.statics.actionAt phit = 1 then [phit] else []) := by
  rcases phit with ⟨data, keep, user, last⟩
  cases last <;> rfl

theorem hardware_output_phit (device : Device) (config : Config)
    (phit : Axis250) :
    (hardware.step device ⟨config, some phit⟩).2 =
      if device.statics.actionAt phit = 1 then [phit] else [] := by
  rw [hardware_step_phit]

end PacketFilter.Hardware
