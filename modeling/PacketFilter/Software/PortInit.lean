import PacketFilter.Software.Dpdk

/-! # Pools, queues and receive threads

The calls that `DPDK::init_dpdk` and `DPDK::port_init` make, in order, with the
places of `mbuf_pools_` and `thread_infos_` that they use. The first call that
fails ends the start-up.
-/

namespace PacketFilter.Software

open Loops

variable {Callback : Type}

inductive StartStep (Callback : Type) where
  /-- `mbuf_pools_[i] = rte_pktmbuf_pool_create(...)` -/
  | createPool (i : Nat)
  | checkPort (portId : BitVec 16)
  | getInfo (portId : BitVec 16)
  | configure (portId queueNum : BitVec 16)
  | adjustDesc (portId : BitVec 16)
  /-- `rte_eth_rx_queue_setup(...)` with the pool `mbuf_pools_[threadId]` -/
  | setupQueue (portId queueId threadId : BitVec 16)
  | startPort (portId : BitVec 16)
  | resetStats (portId : BitVec 16)
  /-- `thread_infos_[threadId] = ...` -/
  | assign (threadId : BitVec 16) (info : ThreadInfo Callback)
  | notify
  /-- `rte_eal_remote_launch(...)` with `thread_infos_[lcoreId]` -/
  | launch (lcoreId : BitVec 16)
  /-- `dpdk_rx_loop(thread_infos_[0].get())` -/
  | runFirst
  deriving DecidableEq

namespace StartStep

/-- What is logged when the call fails, for the calls that can. A port that
fails ends the program in the caller. -/
def failure : StartStep Callback → Option String
  | createPool i =>
      some ("Cannot create MBUF_POOL_" ++ toString i ++ " mbuf pool: ")
  | checkPort portId => some ("Invalid port id " ++ toString portId.toNat)
  | getInfo portId =>
      some ("Failed to get device info for port " ++
        toString portId.toNat ++ ": ")
  | configure portId _ =>
      some ("Failed to configure port " ++ toString portId.toNat ++ ": ")
  | adjustDesc portId =>
      some ("Failed to adjust number of descriptors for port " ++
        toString portId.toNat ++ ": ")
  | setupQueue portId queueId _ =>
      some ("Failed to setup RX queue " ++ toString queueId.toNat ++
        " for port " ++ toString portId.toNat ++ ": ")
  | startPort portId =>
      some ("Failed to start port " ++ toString portId.toNat ++ ": ")
  | resetStats portId =>
      some ("Failed to reset stats for port " ++ toString portId.toNat ++ ": ")
  | launch lcoreId =>
      some ("Failed to launch rx loop on lcore " ++
        toString lcoreId.toNat ++ ": ")
  | assign _ _ | notify | runFirst => none

def poolIndex : StartStep Callback → Option Nat
  | createPool i => some i
  | setupQueue _ _ threadId => some threadId.toNat
  | _ => none

def threadIndex : StartStep Callback → Option Nat
  | assign threadId _ => some threadId.toNat
  | launch lcoreId => some lcoreId.toNat
  | runFirst => some 0
  | _ => none

def fill : StartStep Callback → Option (FillStep Callback)
  | assign threadId info => some (.assign threadId info)
  | _ => none

end StartStep

/-- `port_init`, for a vector `thread_infos_` of the given size. -/
def portInit (threadInfosSize portNum portId : Nat) :
    List (StartStep Callback) :=
  let queueNum := threadInfosSize / portNum
  let port := BitVec.ofNat 16 portId
  [.checkPort port, .getInfo port, .configure port (BitVec.ofNat 16 queueNum),
      .adjustDesc port] ++
    ((List.range queueNum).map fun q =>
      .setupQueue port (BitVec.ofNat 16 q)
        (BitVec.ofNat 16 (portId * queueNum + q))) ++
    [.startPort port, .resetStats port]

/-- The assignments of `init_dpdk` behind the initialization of a port. -/
def assignThreads (numThreads portNum portId : Nat) :
    List (StartStep Callback) :=
  let queueNum := numThreads / portNum
  (List.range queueNum).map fun q =>
    let threadId := BitVec.ofNat 16 (portId * queueNum + q)
    .assign threadId
      ⟨BitVec.ofNat 16 portId, BitVec.ofNat 16 q, threadId, none⟩

/-- `init_dpdk` from the creation of the pools on, for the adjusted number of
threads, when nothing fails. -/
def startSteps (numThreads portNum : Nat) : List (StartStep Callback) :=
  (List.range numThreads).map .createPool ++
    ((List.range portNum).flatMap fun portId =>
      portInit numThreads portNum portId ++
        assignThreads numThreads portNum portId) ++
    .notify ::
      ((List.range' 1 (numThreads - 1)).map fun lcoreId =>
        .launch (BitVec.ofNat 16 lcoreId)) ++
    [.runFirst]

/-- The calls that are made up to the first one that fails. -/
def startUp (fails : StartStep Callback → Bool) (numThreads portNum : Nat) :
    List (StartStep Callback) :=
  let steps := startSteps numThreads portNum
  let passed := steps.takeWhile fun step =>
    !(step.failure.isSome && fails step)
  steps.take (passed.length + 1)

/-- The assignments are the ones that fill `thread_infos_`. -/
theorem filterMap_fill (numThreads portNum : Nat) :
    .resize numThreads ::
        (startSteps numThreads portNum : List (StartStep Callback)).filterMap
          StartStep.fill =
      fillSteps numThreads portNum := by
  simp [startSteps, portInit, assignThreads, fillSteps, assignThread,
    StartStep.fill, List.filterMap_flatMap, List.filterMap_cons,
    Function.comp_def]

section Members

variable {numThreads portNum : Nat}

theorem mem_of_mem_startUp {fails : StartStep Callback → Bool}
    {step : StartStep Callback} (member : step ∈ startUp fails numThreads portNum) :
    step ∈ startSteps numThreads portNum :=
  List.mem_of_mem_take member

theorem createPool_mem_iff {i : Nat} :
    (.createPool i : StartStep Callback) ∈ startSteps numThreads portNum ↔
      i < numThreads := by
  simp [startSteps, portInit, assignThreads]

theorem setupQueue_mem_iff {portId queueId threadId : BitVec 16} :
    (.setupQueue portId queueId threadId : StartStep Callback) ∈
        startSteps numThreads portNum ↔
      ∃ port < portNum, ∃ q < numThreads / portNum,
        portId = BitVec.ofNat 16 port ∧ queueId = BitVec.ofNat 16 q ∧
        threadId = BitVec.ofNat 16 (port * (numThreads / portNum) + q) := by
  simp only [startSteps, portInit, assignThreads]
  simp
  grind

theorem assign_mem_iff {threadId : BitVec 16} {info : ThreadInfo Callback} :
    .assign threadId info ∈ startSteps numThreads portNum ↔
      ∃ port < portNum, ∃ q < numThreads / portNum,
        threadId = BitVec.ofNat 16 (port * (numThreads / portNum) + q) ∧
        info = ⟨BitVec.ofNat 16 port, BitVec.ofNat 16 q, threadId, none⟩ := by
  simp [startSteps, portInit, assignThreads]
  grind

theorem launch_mem_iff {lcoreId : BitVec 16} :
    (.launch lcoreId : StartStep Callback) ∈ startSteps numThreads portNum ↔
      ∃ i, 1 ≤ i ∧ i < numThreads ∧ lcoreId = BitVec.ofNat 16 i := by
  simp [startSteps, portInit, assignThreads]
  grind

end Members

end PacketFilter.Software
