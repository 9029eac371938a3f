import PacketFilter.Foundation.Loops
import Mathlib.Data.BitVec

/-! # DPDK start-up

How `DPDK::init_dpdk` sets up the receive threads and how `main` registers a
callback for them.
-/

namespace PacketFilter.Software

open Loops

variable {Callback : Type}

structure ThreadInfo (Callback : Type) where
  portId : BitVec 16
  queueId : BitVec 16
  threadId : BitVec 16
  rxCallback : Option Callback
  deriving DecidableEq

/-- A shared pointer is null until it is assigned. -/
abbrev ThreadInfos (Callback : Type) := List (Option (ThreadInfo Callback))

/-! ## init_dpdk -/

def roundedThreads (numThreads portNum : Nat) : Nat :=
  if numThreads % portNum ≠ 0 then (numThreads / portNum + 1) * portNum
  else numThreads

def adjustedThreads (numThreads portNum : Nat) : Nat :=
  roundedThreads numThreads portNum % 2 ^ 16

inductive FillStep (Callback : Type) where
  | resize (size : Nat)
  | assign (threadId : BitVec 16) (info : ThreadInfo Callback)
  deriving DecidableEq

def FillStep.apply (infos : ThreadInfos Callback) :
    FillStep Callback → ThreadInfos Callback
  | .resize size =>
      infos.take size ++ List.replicate (size - infos.length) none
  | .assign threadId info => infos.set threadId.toNat (some info)

/-- The assignment to `thread_infos_` in the loops over ports and queues. The
constructor of `thread_info` takes the queue as a `uint16_t`. -/
def assignThread (queueNum portId queue : Nat) : FillStep Callback :=
  let threadId := BitVec.ofNat 16 (portId * queueNum + queue)
  .assign threadId
    ⟨BitVec.ofNat 16 portId, BitVec.ofNat 16 queue, threadId, none⟩

def fillSteps (numThreads portNum : Nat) : List (FillStep Callback) :=
  let queueNum := numThreads / portNum
  .resize numThreads ::
    (List.range portNum).flatMap fun portId =>
      (List.range queueNum).map fun queue => assignThread queueNum portId queue

theorem dvd_roundedThreads (numThreads portNum : Nat) :
    portNum ∣ roundedThreads numThreads portNum := by
  rw [roundedThreads]
  split
  · exact Nat.dvd_mul_left portNum _
  · next divides => exact Nat.dvd_of_mod_eq_zero (not_not.mp divides)

theorem le_roundedThreads (numThreads : Nat) {portNum : Nat}
    (positive : 0 < portNum) :
    numThreads ≤ roundedThreads numThreads portNum := by
  rw [roundedThreads]
  split
  · rw [Nat.mul_comm]
    exact (Nat.lt_mul_div_succ numThreads positive).le
  · exact le_rfl

/-- Rounding adds threads unless every port gets the same number of them. -/
theorem roundedThreads_eq_iff (numThreads portNum : Nat) :
    roundedThreads numThreads portNum = numThreads ↔ portNum ∣ numThreads := by
  constructor
  · intro unchanged
    rw [← unchanged]
    exact dvd_roundedThreads numThreads portNum
  · intro divides
    rw [roundedThreads, if_neg (not_not.mpr (Nat.mod_eq_zero_of_dvd divides))]

def threadInfoAt (queueNum i : Nat) : ThreadInfo Callback :=
  ⟨BitVec.ofNat 16 (i / queueNum), BitVec.ofNat 16 (i % queueNum),
    BitVec.ofNat 16 i, none⟩

theorem assignThread_eq {queueNum queue : Nat} (within : queue < queueNum)
    (portId : Nat) :
    (assignThread queueNum portId queue : FillStep Callback) =
      .assign (BitVec.ofNat 16 (portId * queueNum + queue))
        (threadInfoAt queueNum (portId * queueNum + queue)) := by
  have port : (portId * queueNum + queue) / queueNum = portId := by
    rw [Nat.mul_comm, Nat.mul_add_div (by omega), Nat.div_eq_of_lt within,
      Nat.add_zero]
  have remainder : (portId * queueNum + queue) % queueNum = queue := by
    rw [Nat.mul_comm, Nat.mul_add_mod, Nat.mod_eq_of_lt within]
  rw [assignThread, threadInfoAt, port, remainder]

/-- The loops over ports and queues assign the threads in the order of their
numbers. -/
theorem fillSteps_eq {numThreads portNum : Nat}
    (divides : portNum ∣ numThreads) :
    (fillSteps numThreads portNum : List (FillStep Callback)) =
      .resize numThreads :: (List.range numThreads).map fun i =>
        .assign (BitVec.ofNat 16 i) (threadInfoAt (numThreads / portNum) i) := by
  have counted := flatMap_range portNum (numThreads / portNum) fun i =>
    (.assign (BitVec.ofNat 16 i) (threadInfoAt (numThreads / portNum) i) :
      FillStep Callback)
  rw [Nat.mul_div_cancel' divides] at counted
  rw [fillSteps, ← counted]
  congr 1
  apply List.flatMap_congr
  intro portId _
  apply List.map_congr_left
  intro queue member
  exact assignThread_eq (List.mem_range.mp member) portId

theorem foldl_fillSteps {numThreads portNum : Nat}
    (divides : portNum ∣ numThreads) (inRange : numThreads < 2 ^ 16) :
    (fillSteps numThreads portNum).foldl FillStep.apply
        ([] : ThreadInfos Callback) =
      (List.range numThreads).map fun i =>
        some (threadInfoAt (numThreads / portNum) i) := by
  have filled := foldl_set_range
    (fun i => (some (threadInfoAt (numThreads / portNum) i) :
      Option (ThreadInfo Callback))) none (le_refl numThreads)
  rw [Nat.sub_self, List.replicate_zero, List.append_nil] at filled
  have resized : FillStep.apply ([] : ThreadInfos Callback)
      (.resize numThreads) = List.replicate numThreads none := by
    rw [FillStep.apply, List.take_nil, List.nil_append, List.length_nil,
      Nat.sub_zero]
  rw [fillSteps_eq divides, List.foldl_cons, List.foldl_map, resized, ← filled]
  apply List.foldl_ext
  intro infos i member
  have small : i < 2 ^ 16 := (List.mem_range.mp member).trans inRange
  rw [FillStep.apply, BitVec.toNat_ofNat, Nat.mod_eq_of_lt small]

/-- The answers of the environment to `init_dpdk`, up to the notification. -/
structure Eal where
  ealInit : Int
  portNum : BitVec 16
  poolCreated : Nat → Bool
  portInit : BitVec 16 → Int

/-- How `init_dpdk` fails before the notification. Each failure ends the
program. -/
inductive InitFailure where
  | eal
  | noPorts
  | pool (name : String)
  | port (portId : BitVec 16)
  deriving DecidableEq

def InitFailure.message : InitFailure → String
  | .eal => "Failed to initialize EAL"
  | .noPorts => "No available Ethernet ports"
  | .pool name => "Cannot create " ++ name ++ " mbuf pool: "
  | .port _ => "Failed to initialize DPDK"

def initDpdk (eal : Eal) (numThreads : Nat) :
    Except InitFailure (ThreadInfos Callback) :=
  if eal.ealInit < 0 then .error .eal
  else if eal.portNum = 0 then .error .noPorts
  else
    let adjusted := adjustedThreads numThreads eal.portNum.toNat
    match (List.range adjusted).find? fun i => !eal.poolCreated i with
    | some i => .error (.pool ("MBUF_POOL_" ++ toString i))
    | none =>
        match (List.range eal.portNum.toNat).find? fun portId =>
            eal.portInit (BitVec.ofNat 16 portId) != 0 with
        | some portId => .error (.port (BitVec.ofNat 16 portId))
        | none =>
            .ok ((fillSteps adjusted eal.portNum.toNat).foldl
              FillStep.apply [])

theorem initDpdk_ok {eal : Eal} {numThreads : Nat}
    {infos : ThreadInfos Callback} (started : initDpdk eal numThreads = .ok infos) :
    0 < eal.portNum.toNat ∧
      infos = (fillSteps (adjustedThreads numThreads eal.portNum.toNat)
        eal.portNum.toNat).foldl FillStep.apply [] := by
  rw [initDpdk] at started
  split at started
  · cases started
  · split at started
    · cases started
    · next ports =>
        refine ⟨?_, ?_⟩
        · rw [Nat.pos_iff_ne_zero]
          exact fun zero => ports (BitVec.eq_of_toNat_eq zero)
        · dsimp only at started
          split at started
          · cases started
          · split at started
            · cases started
            · exact (Except.ok.inj started).symm

/-- When the rounded number of threads fits, every thread is set up, none of
them with a callback. -/
theorem initDpdk_infos {eal : Eal} {numThreads : Nat}
    (fits : roundedThreads numThreads eal.portNum.toNat < 2 ^ 16)
    {infos : ThreadInfos Callback} (started : initDpdk eal numThreads = .ok infos) :
    infos = (List.range (roundedThreads numThreads eal.portNum.toNat)).map
      fun i => some (threadInfoAt
        (roundedThreads numThreads eal.portNum.toNat / eal.portNum.toNat) i) := by
  rw [(initDpdk_ok started).2, adjustedThreads, Nat.mod_eq_of_lt fits]
  exact foldl_fillSteps (dvd_roundedThreads _ _) fits

/-! ## Launch -/

/-- How the thread of `init_dpdk` fails behind the notification. That ends the
program, wherever the other threads stand. -/
inductive LaunchFailure where
  | lcore (lcoreId : BitVec 16)
  /-- There is no `thread_infos_[0]`. The behaviour is undefined. -/
  | noThread
  deriving DecidableEq

/-- `init_dpdk` from the notification to the loop of the first thread. The other
loops are launched on lcores of their own. -/
def launch (remoteLaunch : BitVec 16 → Int) (infos : ThreadInfos Callback) :
    Except LaunchFailure Unit :=
  match (List.range' 1 (infos.length - 1)).find? fun lcoreId =>
      remoteLaunch (BitVec.ofNat 16 lcoreId) != 0 with
  | some lcoreId => .error (.lcore (BitVec.ofNat 16 lcoreId))
  | none => if infos = [] then .error .noThread else .ok ()

theorem launch_eq_ok {remoteLaunch : BitVec 16 → Int}
    (launches : ∀ lcoreId, remoteLaunch lcoreId = 0)
    {infos : ThreadInfos Callback} (threads : infos ≠ []) :
    launch remoteLaunch infos = .ok () := by
  have noneFails : (List.range' 1 (infos.length - 1)).find? (fun lcoreId =>
      remoteLaunch (BitVec.ofNat 16 lcoreId) != 0) = none := by
    rw [List.find?_eq_none]
    intro lcoreId _
    rw [launches, bne_self_eq_false]
    exact Bool.false_ne_true
  rw [launch, noneFails]
  exact if_neg threads

/-! ## Registration -/

def registerCallback (infos : ThreadInfos Callback) (threadId : BitVec 16)
    (rxCallback : Callback) : Except String (ThreadInfos Callback) :=
  if threadId.toNat < infos.length then
    .ok (infos.modify threadId.toNat
      (Option.map fun info => { info with rxCallback := some rxCallback }))
  else .error ("Invalid thread_id: " ++ toString threadId.toNat)

def registerCallbacks (infos : ThreadInfos Callback) (numThreads : BitVec 16)
    (rxCallback : Callback) : Except String (ThreadInfos Callback) :=
  (List.range numThreads.toNat).foldlM
    (fun infos i => registerCallback infos (BitVec.ofNat 16 i) rxCallback) infos

theorem registerCallback_append {done : ThreadInfos Callback}
    (inRange : done.length < 2 ^ 16) (entry : Option (ThreadInfo Callback))
    (rest : ThreadInfos Callback) (rxCallback : Callback) :
    registerCallback (done ++ entry :: rest) (BitVec.ofNat 16 done.length)
        rxCallback =
      .ok (done ++ (entry.map fun info =>
        { info with rxCallback := some rxCallback }) :: rest) := by
  rw [registerCallback, BitVec.toNat_ofNat, Nat.mod_eq_of_lt inRange,
    if_pos (by simp), modify_append]

theorem registerCallbacks_eq (infos : ThreadInfos Callback)
    (numThreads : BitVec 16) (rxCallback : Callback)
    (enough : numThreads.toNat ≤ infos.length) :
    registerCallbacks infos numThreads rxCallback =
      .ok ((infos.take numThreads.toNat).map
          (Option.map fun info => { info with rxCallback := some rxCallback }) ++
        infos.drop numThreads.toNat) :=
  foldlM_range _ _ (2 ^ 16)
    (fun _ entry rest inRange =>
      registerCallback_append inRange entry rest rxCallback)
    infos enough numThreads.isLt.le

end PacketFilter.Software
