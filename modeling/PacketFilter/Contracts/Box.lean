import PacketFilter.Contracts.Counters
import PacketFilter.Contracts.Installation
import PacketFilter.Platform.Box

/-! # Box contracts

What the cores of the physical functions do while the server, which knows of a
single one, is run any number of times.
-/

namespace PacketFilter.Contracts.Box

open Hardware Software Interleaving Platform PacketFilter.Box

/-! ## Register accesses -/

/-- Every access to the box is for one slave, at an offset that the slave
knows. -/
theorem accesses_mapped (build : AddressMap.Build) :
    (∀ (j : Nat) (addr inside : BitVec 32),
      AddressMap.access build.numPhysFunc addr = some (.user j inside) ↔
        j < build.numPhysFunc ∧ inside.toNat < 2 ^ 12 ∧
          addr = 0x1000 * BitVec.ofNat 32 j + 0x2000 + inside) ∧
      ∀ (i : Nat) (addr inside : BitVec 32),
        AddressMap.access build.numPhysFunc addr = some (.p2p i inside) ↔
          i < 2 * build.numPhysFunc ∧ inside.toNat < 2 ^ 7 ∧
            addr = 0x80 * BitVec.ofNat 32 i + inside := by
  refine ⟨AddressMap.access_user_iff build, fun i addr inside => ?_⟩
  have base : AddressMap.cP2pBaseAddr = 0#32 := rfl
  rw [AddressMap.access_p2p_iff, AddressMap.cDummyIndex, Nat.mul_comm, base,
    BitVec.add_zero]
  rfl

/-! ## Runs of the server -/

/-- What a run of the server for a list of filters has written when it ends. It
can be ended before it has gone through the list. -/
structure ServerRun where
  filterList : List (List Char)
  written : List RegisterWrite
  within : written <+: (packetFilter filterList).1

def ServerRun.through (filterList : List (List Char)) : ServerRun :=
  ⟨filterList, (packetFilter filterList).1, List.prefix_rfl⟩

structure Operation where
  runs : List ServerRun
  trace : Box.Trace
  performs : writes trace = runs.flatMap ServerRun.written

theorem driverWrites_packetFilter (filterList : List (List Char)) :
    DriverWrites (packetFilter filterList).1 := by
  induction filterList with
  | nil => exact fun write member => absurd member List.not_mem_nil
  | cons filter rest induction =>
      rw [packetFilter]
      cases parsed : parseNetAddr filter with
      | error failure =>
          simp only [updateRule, parsed]
          exact fun write member => absurd member List.not_mem_nil
      | ok address =>
          simp only [updateRule, parsed]
          intro write member
          rcases List.mem_append.mp member with first | later
          · rw [ruleWrites_eq] at first
            simp only [List.mem_cons, List.not_mem_nil, or_false] at first
            rcases first with rfl | rfl | rfl
            · exact ⟨ipv4AddrReg, by decide, rfl⟩
            · exact ⟨udpPortReg, by decide, rfl⟩
            · exact ⟨ruleActionReg, by decide, rfl⟩
          · exact induction write later

theorem Operation.driverWrites (operation : Operation) :
    DriverWrites (writes operation.trace) := by
  rw [operation.performs]
  intro write member
  rcases List.mem_flatMap.mp member with ⟨run, _, written⟩
  exact driverWrites_packetFilter run.filterList write
    (run.within.subset written)

section Box

variable (shell : Shell) (build : AddressMap.Build) (states : Nat → Platform)
  (operation : Operation)

/-! ## The first function -/

section Driver

variable {trace : Box.Trace} (driver : DriverWrites (writes trace))
include driver

theorem run_first :
    (box shell build).run states trace 0 =
      platform.run (states 0) (view 0 trace) := by
  have run := filterCore.run_bank (route shell build) states trace 0
  rw [← routedTo_zero shell build driver, ← platform.run_comap, ← filterCore_eq]
  exact run

theorem outputs_first :
    Mealy.outputsOf 0 ((box shell build).outputs states trace) =
      platform.outputs (states 0) (view 0 trace) := by
  have outputs := filterCore.outputs_bank (route shell build) states trace 0
  rw [← routedTo_zero shell build driver, ← platform.outputs_comap, ← filterCore_eq]
  exact outputs

end Driver

/-- In the box the core of the first function does what the platform does with
the writes of the server and the phits of that function. -/
theorem first_function :
    (box shell build).run states operation.trace 0 =
        platform.run (states 0) (view 0 operation.trace) ∧
      Mealy.outputsOf 0 ((box shell build).outputs states operation.trace) =
        platform.outputs (states 0) (view 0 operation.trace) :=
  ⟨run_first shell build states operation.driverWrites,
    outputs_first shell build states operation.driverWrites⟩

/-! ## The other functions -/

theorem core_acts (state : Platform) (sAxes : List (Option Axis250)) :
    let run := sAxes.map (Invocation.mk state.registers)
    filterCore.run state (sAxes.map .act) =
        { state with device := hardware.run state.device run } ∧
      filterCore.outputs state (sAxes.map .act) =
        hardware.outputs state.device run := by
  induction sAxes generalizing state with
  | nil => exact ⟨rfl, rfl⟩
  | cons sAxis rest induction =>
      have later := induction
        { state with
          device := (hardware.step state.device ⟨state.registers, sAxis⟩).1 }
      exact ⟨later.1, congrArg (List.cons _) later.2⟩

def Closed (device : Device) : Prop :=
  ∀ slot, device.statics.hashTable.table slot = 0

theorem Closed.step {device : Device} (closed : Closed device)
    {invocation : Invocation} (drops : invocation.config.action = 0) :
    Closed (hardware.step device invocation).1 ∧
      (hardware.step device invocation).2 = [] := by
  rcases invocation with ⟨config, _ | phit⟩
  · rw [hardware_step_idle]
    refine ⟨fun slot => ?_, rfl⟩
    have dropped : config.action.setWidth 32 = (0 : BitVec 32) := by
      rw [drops]
      rfl
    change (device.statics.hashTable.insert _ _ _).table slot = 0
    rw [ToeplitzHash.insert_table, dropped, closed slot, ite_self]
  · have action : device.statics.actionAt phit = 0 := by
      rw [Statics.actionAt, tableAction]
      split
      · exact closed _
      · rfl
    rw [hardware_step_phit, action]
    exact ⟨closed, rfl⟩

/-- Without a FORWARD in the action register nothing is ever forwarded. -/
theorem Closed.outputs {device : Device} (closed : Closed device)
    {run : List Invocation}
    (drop : ∀ invocation ∈ run, invocation.config.action = 0) :
    ∀ output ∈ hardware.outputs device run, output = [] := by
  induction run generalizing device with
  | nil => exact fun output member => absurd member List.not_mem_nil
  | cons invocation rest induction =>
      have stepped := closed.step (drop invocation List.mem_cons_self)
      intro output member
      rcases List.mem_cons.mp member with rfl | later
      · exact stepped.2
      · exact induction stepped.1
          (fun other within => drop other (List.mem_cons_of_mem _ within))
          output later

def phitsOf (j : Nat) (trace : Box.Trace) : List Axis250 :=
  (acts j trace).filterMap id

def countedBy (j : Nat) : Statistics :=
  ((box shell build).run (fun _ => powerUp) operation.trace
    j).device.statics.localStats

/-- From power-up on, a function other than the first drops every packet,
whatever the server is run for. -/
theorem others_drop {j : Nat} (other : j ≠ 0) :
    (∀ output ∈ Mealy.outputsOf j
        ((box shell build).outputs (fun _ => powerUp) operation.trace),
      output = []) ∧
      (countedBy shell build operation j).pktForward = 0 ∧
      (countedBy shell build operation j).pktDrop =
        packetEnds (phitsOf j operation.trace) := by
  have routed := routedTo_of_ne shell build operation.driverWrites other
  have alone := core_acts powerUp (acts j operation.trace)
  have ran := filterCore.run_bank (route shell build) (fun _ => powerUp)
    operation.trace j
  have answered := filterCore.outputs_bank (route shell build) (fun _ => powerUp)
    operation.trace j
  rw [routed, alone.1] at ran
  rw [routed, alone.2] at answered
  let run := (acts j operation.trace).map (Invocation.mk powerUp.registers)
  have silent : ∀ output ∈ hardware.outputs Device.initial run, output = [] := by
    apply Closed.outputs (fun slot => rfl)
    intro invocation member
    rcases List.mem_map.mp member with ⟨sAxis, _, rfl⟩
    rfl
  have nothing : writtenToMAxis run = [] := List.flatten_eq_nil_iff.mpr silent
  have consumed : consumedPhits run = phitsOf j operation.trace := by
    rw [consumedPhits, List.filterMap_map]
    rfl
  have counts := counts_after run
  have forwarded : (after run).statics.localStats.pktForward = 0 := by
    rw [counts.pktForward, nothing]
    rfl
  have dropped : (after run).statics.localStats.pktDrop =
      packetEnds (phitsOf j operation.trace) := by
    have balanced := counts.balanced
    rw [Balanced, counts.pktIn, consumed, forwarded] at balanced
    rw [balanced]
    exact (BitVec.zero_add _).symm
  rw [countedBy, box, answered, ran]
  exact ⟨silent, forwarded, dropped⟩

/-- The shell gives the box the megabyte behind its base address. -/
def openNic : Shell where
  box250 addr :=
    if 0x100000 ≤ addr.toNat ∧ addr.toNat < 0x200000 then
      some (addr - 0x100000)
    else none
  box250_base offset small := by
    have base : (0x100000 : BitVec 32).toNat = 0x100000 := rfl
    have sum : (0x100000 + offset : BitVec 32).toNat =
        0x100000 + offset.toNat := by
      rw [BitVec.toNat_add, base, Nat.mod_eq_of_lt (by omega)]
    rw [sum, if_pos (by omega), BitVec.add_comm, BitVec.add_sub_cancel]
  box250_below addr small := if_neg (by omega)

def twoFunctions : AddressMap.Build := ⟨2, .inr rfl⟩

def onFirst (trace : Platform.Trace) : Box.Trace :=
  trace.map fun event =>
    match event with
    | .write written => .write written
    | .act sAxis => .act (0, sAxis)

theorem view_onFirst (trace : Platform.Trace) : view 0 (onFirst trace) = trace := by
  rw [view, onFirst, List.filterMap_map, ← List.filterMap_some (l := trace),
    List.filterMap_filterMap]
  apply List.filterMap_congr
  intro event _
  cases event <;> rfl

def sampleOperation : Operation where
  runs := [.through (sampleFilters.map ValidAddress.netAddr)]
  trace := onFirst (idleAfterEach (filterWrites sampleFilters)).trace
  performs := by
    rw [← writes_view 0, view_onFirst,
      (idleAfterEach (filterWrites sampleFilters)).performs,
      List.flatMap_singleton]
    rfl

def sampleArrival : Operation where
  runs := sampleOperation.runs
  trace := sampleOperation.trace ++ [.act (1, some (blankPhit true))]
  performs := by
    rw [writes_append, sampleOperation.performs]
    exact List.append_nil _

theorem others_drop_sample :
    (∀ output ∈ Mealy.outputsOf 1 ((box openNic twoFunctions).outputs
        (fun _ => powerUp) sampleArrival.trace), output = []) ∧
      (countedBy openNic twoFunctions sampleArrival 1).pktForward = 0 ∧
      (countedBy openNic twoFunctions sampleArrival 1).pktDrop =
        packetEnds (phitsOf 1 sampleArrival.trace) :=
  others_drop openNic twoFunctions sampleArrival (by decide)

/-! ## The policy of the first function -/

/-- From any states at its first write, one run of the server for accepted filters
decides which addresses the first function forwards, whatever the other functions
do meanwhile. -/
theorem policy_first {filters : List ValidAddress}
    (started : operation.runs = [.through (filters.map ValidAddress.netAddr)])
    (paced : Paced Option.isNone (view 0 operation.trace)) (address : Address) :
    address ∈ policy ((box shell build).run states operation.trace 0) ↔
      Touched filters address ∨
        ¬ Touched filters address ∧ Residual filters (states 0) address := by
  have performs : writes (view 0 operation.trace) = filterWrites filters := by
    rw [writes_view, operation.performs, started, List.flatMap_singleton]
    rfl
  rw [run_first shell build states operation.driverWrites]
  exact mem_policy_iff (states 0) ⟨view 0 operation.trace, performs⟩ paced
    address

theorem policy_first_sample :
    (0x0102A8C0, 0x3421) ∈ policy ((box openNic twoFunctions).run
        (fun _ => powerUp) sampleOperation.trace 0) ↔
      Touched sampleFilters (0x0102A8C0, 0x3421) ∨
        ¬ Touched sampleFilters (0x0102A8C0, 0x3421) ∧
          Residual sampleFilters powerUp (0x0102A8C0, 0x3421) :=
  policy_first openNic twoFunctions (fun _ => powerUp) sampleOperation rfl
    (by
      rw [sampleOperation, view_onFirst]
      exact paced_idleAfterEach _)
    (0x0102A8C0, 0x3421)

end Box

end PacketFilter.Contracts.Box
