import Mathlib.Logic.Equiv.Fin.Basic
import PacketFilter.Software.PortInit

/-! # Thread assignment contract

`init_dpdk` rounds the number of threads up to a multiple of the number of
ports and deals out one thread, one queue and one pool to each place of its
vectors.
-/

namespace PacketFilter.Contracts

open Loops Software

variable {Callback : Type}

/-! ## The number of threads -/

structure SafelyRounded (numThreads portNum : BitVec 16) : Prop where
  multiple : portNum.toNat ∣ adjustedThreads numThreads.toNat portNum.toNat
  covers : max numThreads.toNat 1 ≤
    adjustedThreads numThreads.toNat portNum.toNat
  bounded : adjustedThreads numThreads.toNat portNum.toNat <
    numThreads.toNat + portNum.toNat + 1
  queues : 1 ≤ adjustedThreads numThreads.toNat portNum.toNat / portNum.toNat
  first : ∀ (eal : Eal) (infos : ThreadInfos Unit), eal.portNum = portNum →
    initDpdk eal numThreads.toNat = .ok infos →
    ∃ info, infos[0]? = some (some info)

theorem roundedThreads_le_iff (numThreads queues : Nat) {portNum : Nat}
    (positive : 0 < portNum) :
    roundedThreads numThreads portNum ≤ queues * portNum ↔
      numThreads ≤ queues * portNum := by
  constructor
  · exact (le_roundedThreads numThreads positive).trans
  · intro covers
    rw [roundedThreads]
    split
    · next remainder =>
        have below : numThreads / portNum < queues := by
          rw [Nat.div_lt_iff_lt_mul positive]
          refine lt_of_le_of_ne covers ?_
          intro equal
          simp [equal] at remainder
        exact Nat.mul_le_mul_right portNum below
    · exact covers

theorem roundedThreads_lt (numThreads : Nat) {portNum : Nat}
    (positive : 0 < portNum) :
    roundedThreads numThreads portNum < numThreads + portNum := by
  rw [roundedThreads]
  split
  · next remainder =>
      have whole := Nat.div_add_mod' numThreads portNum
      rw [Nat.succ_mul]
      omega
  · omega

/-- Past the last multiple of the port count that fits, the rounded number
wraps to less than was asked for. -/
theorem adjustedThreads_of_exceeds {numThreads portNum : Nat}
    (threadsInRange : numThreads < 2 ^ 16) (portsInRange : portNum < 2 ^ 16)
    (positive : 0 < portNum) (exceeds : 65535 / portNum * portNum < numThreads) :
    adjustedThreads numThreads portNum < numThreads := by
  have upper := roundedThreads_lt numThreads positive
  have above : ¬ roundedThreads numThreads portNum ≤
      65535 / portNum * portNum := by
    rw [roundedThreads_le_iff numThreads _ positive]
    omega
  have wraps : 65535 < roundedThreads numThreads portNum := by
    rcases dvd_roundedThreads numThreads portNum with ⟨queues, isMultiple⟩
    rw [isMultiple, Nat.mul_comm] at above ⊢
    rw [Nat.mul_le_mul_right_iff positive, not_le] at above
    exact (Nat.div_lt_iff_lt_mul positive).mp above
  rw [adjustedThreads]
  omega

theorem adjustedThreads_of_fits {numThreads portNum : Nat}
    (positive : 0 < portNum) (fits : numThreads ≤ 65535 / portNum * portNum) :
    adjustedThreads numThreads portNum = roundedThreads numThreads portNum := by
  have below := (roundedThreads_le_iff numThreads _ positive).mpr fits
  have largest := Nat.div_mul_le_self 65535 portNum
  rw [adjustedThreads, Nat.mod_eq_of_lt (by omega)]

theorem safelyRounded_of_fits {numThreads portNum : BitVec 16}
    (ports : 0 < portNum.toNat) (threads : 1 ≤ numThreads.toNat)
    (fits : numThreads.toNat ≤ 65535 / portNum.toNat * portNum.toNat) :
    SafelyRounded numThreads portNum := by
  have adjusted := adjustedThreads_of_fits ports fits
  have covers := le_roundedThreads numThreads.toNat ports
  have divides := dvd_roundedThreads numThreads.toNat portNum.toNat
  have below := (roundedThreads_le_iff numThreads.toNat _ ports).mpr fits
  have largest := Nat.div_mul_le_self 65535 portNum.toNat
  have bounded := roundedThreads_lt numThreads.toNat ports
  have queues := Nat.div_pos (Nat.le_of_dvd (by omega) divides) ports
  constructor
  · rw [adjusted]
    exact divides
  · rw [adjusted]
    omega
  · rw [adjusted]
    omega
  · rw [adjusted]
    exact queues
  · intro eal infos isPorts started
    rw [← isPorts] at below largest covers
    have isInfos := initDpdk_infos (by omega) started
    have some : 0 < roundedThreads numThreads.toNat eal.portNum.toNat := by
      omega
    rw [isInfos]
    simp [some]

/-- The adjusted number of threads is safe exactly when at least one thread is
asked for and not more than the largest multiple of the port count that a
`uint16_t` holds. -/
theorem safely_rounded_iff (numThreads portNum : BitVec 16)
    (ports : 0 < portNum.toNat) :
    SafelyRounded numThreads portNum ↔
      1 ≤ numThreads.toNat ∧
        numThreads.toNat ≤ 65535 / portNum.toNat * portNum.toNat := by
  constructor
  · intro safe
    have covers := safe.covers
    constructor
    · by_contra none
      have isZero : numThreads.toNat = 0 := by omega
      simp [isZero, adjustedThreads, roundedThreads] at covers
    · by_contra exceeds
      have wrapped := adjustedThreads_of_exceeds numThreads.isLt portNum.isLt
        ports (not_le.mp exceeds)
      omega
  · intro condition
    exact safelyRounded_of_fits ports condition.1 condition.2

theorem safely_rounded_sample : SafelyRounded 5 2 :=
  (safely_rounded_iff 5 2 (by decide)).mpr (by decide)

/-- 65535 threads on two ports wrap to none. -/
theorem not_safely_rounded :
    ¬ ∀ numThreads portNum : BitVec 16, 0 < portNum.toNat →
      SafelyRounded numThreads portNum := by
  intro safe
  have covers := (safe 65535 2 (by decide)).covers
  exact absurd covers (by decide)

/-! ## Queues, pools and threads -/

def slotEquiv {numThreads portNum : Nat} (divides : portNum ∣ numThreads) :
    Fin portNum × Fin (numThreads / portNum) ≃ Fin numThreads :=
  finProdFinEquiv.trans (finCongr (Nat.mul_div_cancel' divides))

theorem slotEquiv_val {numThreads portNum : Nat}
    (divides : portNum ∣ numThreads) (port : Fin portNum)
    (queue : Fin (numThreads / portNum)) :
    (slotEquiv divides (port, queue)).val =
      port.val * (numThreads / portNum) + queue.val := by
  simp [slotEquiv, Nat.mul_comm, Nat.add_comm]

def pairInfo {portNum queueNum : Nat} (pair : Fin portNum × Fin queueNum)
    (threadId : BitVec 16) : ThreadInfo Callback :=
  ⟨BitVec.ofNat 16 pair.1, BitVec.ofNat 16 pair.2, threadId, none⟩

def assignedSlot : StartStep Callback → Option Nat
  | .assign threadId _ => some threadId.toNat
  | _ => none

/-- The places are dealt out one to one, and a queue gets the pool with the
number of the thread that polls it. -/
structure DealtOut (steps : List (StartStep Callback))
    (numThreads portNum : Nat) : Prop where
  once : steps.filterMap assignedSlot = List.range numThreads
  pairs : ∃ slot : Fin portNum × Fin (numThreads / portNum) ≃ Fin numThreads,
    (∀ threadId info, .assign threadId info ∈ steps ↔
      ∃ pair, threadId = BitVec.ofNat 16 (slot pair).val ∧
        info = pairInfo pair threadId) ∧
    ∀ portId queueId pool, .setupQueue portId queueId pool ∈ steps ↔
      ∃ pair, portId = BitVec.ofNat 16 pair.1.val ∧
        queueId = BitVec.ofNat 16 pair.2.val ∧
        pool = BitVec.ofNat 16 (slot pair).val
  unshared : ∀ portId queueId portId' queueId' pool,
    .setupQueue portId queueId pool ∈ steps →
      .setupQueue portId' queueId' pool ∈ steps →
      portId = portId' ∧ queueId = queueId'
  polled : ∀ portId queueId pool threadId info,
    .setupQueue portId queueId pool ∈ steps → .assign threadId info ∈ steps →
      info.portId = portId → info.queueId = queueId → threadId = pool

def UsesInside (step : StartStep Callback) (numThreads : Nat) : Prop :=
  (∀ i ∈ step.poolIndex, i < numThreads) ∧
    ∀ i ∈ step.threadIndex, i < numThreads

theorem ofNat_inj_of_lt {limit first second : Nat} (small : limit ≤ 65535)
    (firstBelow : first < limit) (secondBelow : second < limit)
    (equal : BitVec.ofNat 16 first = BitVec.ofNat 16 second) :
    first = second := by
  have values := congrArg BitVec.toNat equal
  rw [BitVec.toNat_ofNat, BitVec.toNat_ofNat] at values
  omega

section Dealing

variable {numThreads portNum : Nat} (divides : portNum ∣ numThreads)

theorem setupQueue_mem_iff_slot {portId queueId pool : BitVec 16} :
    (.setupQueue portId queueId pool : StartStep Callback) ∈
        startSteps numThreads portNum ↔
      ∃ pair, portId = BitVec.ofNat 16 pair.1.val ∧
        queueId = BitVec.ofNat 16 pair.2.val ∧
        pool = BitVec.ofNat 16 (slotEquiv divides pair).val := by
  rw [setupQueue_mem_iff]
  constructor
  · intro found
    rcases found with ⟨port, isPort, q, isQueue, parts⟩
    refine ⟨(⟨port, isPort⟩, ⟨q, isQueue⟩), ?_⟩
    simpa only [slotEquiv_val] using parts
  · intro found
    rcases found with ⟨⟨port, queue⟩, parts⟩
    refine ⟨port, port.isLt, queue, queue.isLt, ?_⟩
    simpa only [slotEquiv_val] using parts

theorem assign_mem_iff_slot {threadId : BitVec 16} {info : ThreadInfo Callback} :
    .assign threadId info ∈ startSteps numThreads portNum ↔
      ∃ pair, threadId = BitVec.ofNat 16 (slotEquiv divides pair).val ∧
        info = pairInfo pair threadId := by
  rw [assign_mem_iff]
  constructor
  · intro found
    rcases found with ⟨port, isPort, q, isQueue, parts⟩
    refine ⟨(⟨port, isPort⟩, ⟨q, isQueue⟩), ?_⟩
    simpa only [slotEquiv_val, pairInfo] using parts
  · intro found
    rcases found with ⟨⟨port, queue⟩, parts⟩
    refine ⟨port, port.isLt, queue, queue.isLt, ?_⟩
    simpa only [slotEquiv_val, pairInfo] using parts

include divides

theorem assignedSlots_eq (inRange : numThreads ≤ 65535) :
    (startSteps numThreads portNum : List (StartStep Callback)).filterMap
      assignedSlot = List.range numThreads := by
  have counted := flatMap_range portNum (numThreads / portNum) fun i =>
    (BitVec.ofNat 16 i).toNat
  rw [Nat.mul_div_cancel' divides] at counted
  have slots : (startSteps numThreads portNum : List (StartStep Callback)).filterMap
      assignedSlot = (List.range numThreads).map fun i =>
        (BitVec.ofNat 16 i).toNat := by
    rw [← counted]
    simp [startSteps, portInit, assignThreads, assignedSlot,
      List.filterMap_flatMap, List.filterMap_cons, Function.comp_def]
  rw [slots]
  refine (List.map_congr_left ?_).trans (List.map_id _)
  intro i member
  have below := List.mem_range.mp member
  rw [BitVec.toNat_ofNat, Nat.mod_eq_of_lt (by omega), id]

theorem usesInside_of_mem (positive : 1 ≤ numThreads)
    (inRange : numThreads ≤ 65535) {step : StartStep Callback}
    (member : step ∈ startSteps numThreads portNum) :
    UsesInside step numThreads := by
  have narrow : ∀ i < numThreads, (BitVec.ofNat 16 i).toNat < numThreads := by
    intro i below
    rw [BitVec.toNat_ofNat]
    omega
  cases step with
  | createPool i =>
      have below := createPool_mem_iff.mp member
      simpa [UsesInside, StartStep.poolIndex, StartStep.threadIndex] using below
  | setupQueue portId queueId pool =>
      rcases (setupQueue_mem_iff_slot divides).mp member with ⟨pair, -, -, rfl⟩
      have below := narrow _ (slotEquiv divides pair).isLt
      simpa [UsesInside, StartStep.poolIndex, StartStep.threadIndex] using below
  | assign threadId info =>
      rcases (assign_mem_iff_slot divides).mp member with ⟨pair, rfl, -⟩
      have below := narrow _ (slotEquiv divides pair).isLt
      simpa [UsesInside, StartStep.poolIndex, StartStep.threadIndex] using below
  | launch lcoreId =>
      rcases launch_mem_iff.mp member with ⟨i, -, below, rfl⟩
      have below := narrow i below
      simpa [UsesInside, StartStep.poolIndex, StartStep.threadIndex] using below
  | runFirst =>
      have below : 0 < numThreads := positive
      simpa [UsesInside, StartStep.poolIndex, StartStep.threadIndex] using below
  | _ => exact ⟨nofun, nofun⟩

theorem dealtOut_startSteps (inRange : numThreads ≤ 65535) :
    DealtOut (startSteps numThreads portNum : List (StartStep Callback))
      numThreads portNum where
  once := assignedSlots_eq divides inRange
  pairs := ⟨slotEquiv divides, fun _ _ => assign_mem_iff_slot divides,
    fun _ _ _ => setupQueue_mem_iff_slot divides⟩
  unshared := by
    intro portId queueId portId' queueId' pool first second
    rcases (setupQueue_mem_iff_slot divides).mp first with
      ⟨pair, rfl, rfl, rfl⟩
    rcases (setupQueue_mem_iff_slot divides).mp second with
      ⟨pair', rfl, rfl, isPool⟩
    have slot := ofNat_inj_of_lt inRange (slotEquiv divides pair).isLt
      (slotEquiv divides pair').isLt isPool
    rcases (slotEquiv divides).injective (Fin.ext slot) with rfl
    exact ⟨rfl, rfl⟩
  polled := by
    intro portId queueId pool threadId info setup assigned isPort isQueue
    rcases (setupQueue_mem_iff_slot divides).mp setup with ⟨pair, rfl, rfl, rfl⟩
    rcases (assign_mem_iff_slot divides).mp assigned with ⟨pair', rfl, rfl⟩
    -- ports and queues are below the number of threads, so their numbers differ
    -- when they do
    have ports : portNum ≤ 65535 := by
      have some := (slotEquiv divides pair).pos
      exact (Nat.le_of_dvd (by omega) divides).trans inRange
    have queues : numThreads / portNum ≤ 65535 :=
      (Nat.div_le_self _ _).trans inRange
    have samePort := ofNat_inj_of_lt ports pair'.1.isLt pair.1.isLt isPort
    have sameQueue := ofNat_inj_of_lt queues pair'.2.isLt pair.2.isLt isQueue
    have same : pair' = pair := Prod.ext (Fin.ext samePort) (Fin.ext sameQueue)
    rw [same]

/-- The threads, queues and pools of a start-up that succeeds are dealt out one
to one, and no start-up uses a place beyond the vectors. -/
theorem threads_dealt_out (positive : 1 ≤ numThreads)
    (inRange : numThreads ≤ 65535) :
    DealtOut (startSteps numThreads portNum : List (StartStep Callback))
        numThreads portNum ∧
      ∀ (fails : StartStep Callback → Bool),
        ∀ step ∈ startUp fails numThreads portNum,
          UsesInside step numThreads := by
  constructor
  · exact dealtOut_startSteps divides inRange
  · intro fails step member
    exact usesInside_of_mem divides positive inRange (mem_of_mem_startUp member)

end Dealing

theorem threads_dealt_out_sample :
    DealtOut (startSteps 4 2 : List (StartStep Unit)) 4 2 :=
  (threads_dealt_out (by decide) (by decide) (by decide)).1

end PacketFilter.Contracts
