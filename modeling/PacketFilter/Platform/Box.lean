import PacketFilter.Foundation.Bank
import PacketFilter.Hardware.AddressMap
import PacketFilter.Platform.SharedRegisters

/-! # The box

One core of the filter for every physical function, behind the address map that
gives each of them its registers.
-/

namespace PacketFilter

open Hardware Software Interleaving

/-- The registers of a core at their own offsets. -/
def Hardware.Config.writeCfg (config : Config) (written : RegisterWrite) :
    Config :=
  if written.address = ipv4AddrReg then { config with ipv4Addr := written.value }
  else if written.address = udpPortReg then
    { config with udpPort := written.value.setWidth 16 }
  else if written.address = ruleActionReg then
    { config with action := written.value.setWidth 8 }
  else config

def filterCore : Mealy Platform Platform.Event (List Axis250) where
  step state event :=
    match event with
    | .write written =>
        ({ state with registers := state.registers.writeCfg written }, [])
    | .act sAxis =>
        let result := hardware.step state.device ⟨state.registers, sAxis⟩
        ({ state with device := result.1 }, result.2)

/-- The shell around the box. It gives the box the addresses from the base of
its own on, and none below it. -/
structure Shell where
  box250 : BitVec 32 → Option (BitVec 32)
  box250_base : ∀ offset : BitVec 32, offset.toNat < 2 ^ 20 →
    box250 (0x100000 + offset) = some offset
  box250_below : ∀ addr : BitVec 32, addr.toNat < 0x100000 → box250 addr = none

namespace Box

/-- An invocation names the physical function whose core is invoked. -/
abbrev Event := Interleaving.Event RegisterWrite (Nat × Option Axis250)

abbrev Trace := Interleaving.Trace RegisterWrite (Nat × Option Axis250)

variable (shell : Shell) (build : AddressMap.Build)

def target (written : RegisterWrite) : Option (Nat × RegisterWrite) :=
  match (shell.box250 written.address).bind
    (AddressMap.access build.numPhysFunc) with
  | some (.user j addr) => some (j, ⟨addr, written.value⟩)
  | some (.p2p _ _) => none
  | some .dummy => none
  | none => none

def route : Event → Option (Nat × Platform.Event)
  | .write written =>
      (target shell build written).map fun (j, inside) => (j, .write inside)
  | .act (i, sAxis) => some (i, .act sAxis)

def box : Mealy (Nat → Platform) Event (Option (Nat × List Axis250)) :=
  filterCore.bank (route shell build)

/-! ## A core by itself -/

def absolute : Platform.Event → Platform.Event
  | .write written => .write (mmioRegWrite written.address written.value)
  | .act sAxis => .act sAxis

theorem writeRegister_absolute (config : Config) (written : RegisterWrite) :
    config.writeRegister (mmioRegWrite written.address written.value) =
      config.writeCfg written := by
  have shifted : ∀ offset : BitVec 32,
      baseAddr + written.address = baseAddr + offset ↔
        written.address = offset :=
    fun offset => BitVec.add_right_inj baseAddr
  simp only [Config.writeRegister, Config.writeCfg, mmioRegWrite, shifted]

/-- The platform is a core whose registers have the addresses of the driver. -/
theorem filterCore_eq : filterCore = platform.comap absolute := by
  rw [filterCore, Mealy.comap, Mealy.mk.injEq]
  funext state event
  cases event with
  | write written =>
      rw [absolute, platform]
      simp only [writeRegister_absolute]
  | act sAxis => rfl

/-! ## What the driver reaches -/

def DriverWrites (written : List RegisterWrite) : Prop :=
  ∀ write ∈ written, ∃ offset : BitVec 32, offset.toNat < 2 ^ 12 ∧
    write = mmioRegWrite offset write.value

theorem access_driver {offset : BitVec 32} (inside : offset.toNat < 2 ^ 12) :
    (shell.box250 (baseAddr + offset)).bind
        (AddressMap.access build.numPhysFunc) = some (.user 0 offset) := by
  have split : baseAddr + offset = 0x100000 + (0x2000 + offset) := by
    rw [baseAddr, BitVec.add_assoc]
  have small : (0x2000 + offset : BitVec 32).toNat < 2 ^ 20 := by
    have base : (0x2000 : BitVec 32).toNat = 0x2000 := rfl
    rw [BitVec.toNat_add, base]
    omega
  have positive : 0 < build.numPhysFunc := by
    rcases build.supported with one | two <;> omega
  rw [split, shell.box250_base _ small, Option.bind_some]
  exact (AddressMap.access_user_iff build 0 _ offset).mpr
    ⟨positive, inside, rfl⟩

theorem target_driver {offset : BitVec 32} (inside : offset.toNat < 2 ^ 12)
    (value : BitVec 32) :
    target shell build (mmioRegWrite offset value) = some (0, ⟨offset, value⟩) := by
  rw [target, mmioRegWrite, access_driver shell build inside]

def view (j : Nat) (trace : Trace) : Platform.Trace :=
  trace.filterMap fun event =>
    match event with
    | .write written => some (.write written)
    | .act (i, sAxis) => if i = j then some (.act sAxis) else none

def acts (j : Nat) (trace : Trace) : List (Option Axis250) :=
  trace.filterMap fun event =>
    match event with
    | .write _ => none
    | .act (i, sAxis) => if i = j then some sAxis else none

theorem writes_view (j : Nat) (trace : Trace) :
    writes (view j trace) = writes trace := by
  induction trace with
  | nil => rfl
  | cons event rest induction =>
      cases event with
      | write written => exact congrArg (written :: ·) induction
      | act action =>
          rcases action with ⟨i, sAxis⟩
          by_cases own : i = j
          · simpa [view, own] using induction
          · simpa [view, own] using induction

theorem route_driver {written : RegisterWrite} {offset : BitVec 32}
    (inside : offset.toNat < 2 ^ 12)
    (isDriver : written = mmioRegWrite offset written.value) :
    route shell build (.write written) =
      some (0, .write ⟨offset, written.value⟩) := by
  rw [route, isDriver, target_driver shell build inside]
  rfl

section Routed

variable {trace : Trace} (driver : DriverWrites (writes trace))
include driver

theorem routedTo_zero :
    (Mealy.routedTo (route shell build) 0 trace).map absolute =
      view 0 trace := by
  induction trace with
  | nil => rfl
  | cons event rest induction =>
      rw [Mealy.routedTo_cons, List.map_append]
      cases event with
      | write written =>
          rw [writes_write] at driver
          rcases driver written List.mem_cons_self with
            ⟨offset, inside, isDriver⟩
          rw [route_driver shell build inside isDriver,
            induction fun other member => driver other
              (List.mem_cons_of_mem written member)]
          have back : absolute (.write ⟨offset, written.value⟩) =
              .write written :=
            congrArg Interleaving.Event.write isDriver.symm
          change absolute (.write ⟨offset, written.value⟩) :: view 0 rest = _
          rw [back]
          rfl
      | act action =>
          rcases action with ⟨i, sAxis⟩
          rw [induction driver]
          by_cases own : i = 0
          · simp [route, Mealy.addressedTo, view, own, absolute]
          · simp [route, Mealy.addressedTo, view, own]

theorem routedTo_of_ne {j : Nat} (other : j ≠ 0) :
    Mealy.routedTo (route shell build) j trace = (acts j trace).map .act := by
  induction trace with
  | nil => rfl
  | cons event rest induction =>
      rw [Mealy.routedTo_cons]
      cases event with
      | write written =>
          rw [writes_write] at driver
          rcases driver written List.mem_cons_self with
            ⟨offset, inside, isDriver⟩
          rw [route_driver shell build inside isDriver,
            induction fun later member => driver later
              (List.mem_cons_of_mem written member)]
          simp [Mealy.addressedTo, Ne.symm other, acts]
      | act action =>
          rcases action with ⟨i, sAxis⟩
          rw [induction driver]
          by_cases own : i = j
          · simp [route, Mealy.addressedTo, acts, own]
          · simp [route, Mealy.addressedTo, acts, own]

end Routed

end Box

end PacketFilter
