import PacketFilter.Foundation.EffectLog
import PacketFilter.Foundation.Tokens
import PacketFilter.Software.Arguments
import PacketFilter.Software.Dpdk
import PacketFilter.Software.Driver
import PacketFilter.Software.ShowStats

/-! # The server

`main`, from the command line to the destructors, with what it does to the
world. A failure aborts the program where it happens. The other threads can hold
`main` up or end the program anywhere.
-/

namespace PacketFilter.Software.Server

open EffectLog

inductive Effect where
  | ealInit (argv : List (List Char))
  | write (bar : BitVec 32) (written : RegisterWrite)
  | read (bar address : BitVec 32)
  | wait (duration : BitVec 32)
  | log (message : String) (values : List Nat)
  | joinMainThread
  | mpWaitLcore
  | stop (portId : BitVec 16)
  | close (portId : BitVec 16)
  | cleanup
  deriving DecidableEq

def Effect.written : Effect → Option RegisterWrite
  | .write _ written => some written
  | _ => none

inductive DeviceFailure where
  | notQdma (portId : BitVec 32)
  | invalidPort (portId : BitVec 32)
  | noBar (portId : BitVec 32)
  deriving DecidableEq

def DeviceFailure.message : DeviceFailure → String
  | .notQdma portId =>
      "Port " ++ toString portId.toNat ++ " is not a QDMA device"
  | .invalidPort portId => "Invalid port_id: " ++ toString portId.toNat
  | .noBar portId =>
      "Failed to get BAR details for port " ++ toString portId.toNat ++ ": "

inductive Failure where
  | arguments (failure : ArgumentFailure)
  | init (failure : InitFailure)
  | callback (message : String)
  | device (failure : DeviceFailure)
  | rule (failure : UpdateFailure)
  | access (message : List Char)
  | launch (failure : LaunchFailure)
  /-- `main` waits for ever, or another thread has ended the program. -/
  | stopped
  deriving DecidableEq

/-- What the world answers to a run. A register may be answered by all that has
been done so far. -/
structure Environment where
  eal : Eal
  remoteLaunch : BitVec 16 → Int
  isQdma : BitVec 32 → Bool
  barDetails : BitVec 32 → Int × BitVec 32
  readReg : List Effect → BitVec 32 → BitVec 32 → BitVec 32
  /-- Whether a run gets no further than a log. -/
  stops : List Effect → Bool

abbrev Program := EffectLog.Program Failure Effect

variable (environment : Environment)

/-- The constructor `MMIO::MMIO`, which gets the number of the user BAR. It
keeps the number of ports in a `uint8_t`. -/
def mmio (portId : BitVec 32) : Except DeviceFailure (BitVec 32) :=
  if environment.isQdma portId = false then .error (.notQdma portId)
  else if ¬ portId.toNat < (environment.eal.portNum.setWidth 8).toNat then
    .error (.invalidPort portId)
  else
    let (ret, userBar) := environment.barDetails portId
    if ret ≠ 0 then .error (.noBar portId) else .ok userBar

def dpdkArgv (config : List Char) : List (List Char) :=
  let (tokens, argv) := Tokens.strtokAll ' ' config
  tokens.map (Tokens.stringAt argv)

/-- The constructor `DPDK::DPDK`, when nothing wakes it before the notification.
It waits for ever if the notification comes before the wait. -/
def dpdk (config : List Char) (numThreads : BitVec 16) :
    Program (ThreadInfos Unit) := do
  perform (.ealInit (dpdkArgv config))
  attempt .init (initDpdk environment.eal numThreads.toNat)

def packetFilter (filterList : List (List Char)) : Program (BitVec 32) := do
  let bar ← attempt .device (mmio environment 0)
  let (ended, driver) := (Driver.packetFilter filterList).execute ⟨0, []⟩
  forM driver.writes fun written => perform (.write bar written)
  attempt .rule ended
  return bar

def readStat (bar base offset : BitVec 32) : Program (BitVec 64) :=
  ExceptT.adapt .access (Software.read
    (fun address => ask (.read bar address) fun log =>
      environment.readReg log bar address) base .uint64 offset)

def logReport (title : String) (lines : List (String × BitVec 64)) :
    Program Unit := do
  perform (.log title [])
  forM lines fun (str, val) => perform (.log str [val.toNat])

def packetAdapter : Program Unit := do
  let bar ← attempt .device (mmio environment 0)
  match ← showAdapterStats (readStat environment bar opennicAdapBaseAddr) with
  | none => return ()
  | some report => logReport "Packet Adapter Statistics:" report.lines

def packetFilterStats (bar : BitVec 32) : Program Unit := do
  match ← showStats (readStat environment bar baseAddr) with
  | none => return ()
  | some report => logReport "Packet Filter Statistics:" report.lines

/-- The destructor `DPDK::~DPDK`. It first joins the thread of `init_dpdk`, which
ends the program unless it can launch all loops. -/
def shutdown (portNum : BitVec 16) (launched : Except LaunchFailure Unit) :
    Program Unit := do
  attempt .launch launched
  perform .joinMainThread
  perform .mpWaitLcore
  forM (List.range portNum.toNat) fun portId => do
    perform (.stop (BitVec.ofNat 16 portId))
    perform (.close (BitVec.ofNat 16 portId))
  perform .cleanup

/-- `main`, of the arguments behind the name of the program, when nothing stops
it. -/
def main (argv : List (List Char)) : Program Unit := do
  let args ← attempt .arguments (Arguments.parseArgs argv)
  let threadInfos ← dpdk environment (args.dpdkConfig.getD []) args.numThreads
  let _ ← attempt .callback (registerCallbacks threadInfos args.numThreads ())
  let bar ← packetFilter environment args.filterList
  perform (.log "Running for %u seconds..." [args.duration.toNat])
  perform (.wait args.duration)
  perform (.log "Time's up, shutting down..." [])
  packetAdapter environment
  packetFilterStats environment bar
  shutdown environment.eal.portNum (launch environment.remoteLaunch threadInfos)

def run (argv : List (List Char)) : Except Failure Unit × List Effect :=
  cutOff environment.stops .stopped
    (FailingState.execute (main environment argv) [])

end PacketFilter.Software.Server
