import PacketFilter.Contracts.Datapath
import Mathlib.Data.List.ReduceOption

/-! # Bubbles

Idle invocations come between phits whenever the stream has none to offer.
Once the configured rule is in the table they make no difference.
-/

namespace PacketFilter.Contracts

open Hardware

/-- The rule on the configuration ports is in its slot already. -/
def Settled (config : Config) (statics : Statics) : Prop :=
  statics.hashTable.lookup config.ipv4Addr config.udpPort =
    config.action.setWidth 32

instance (config : Config) (statics : Statics) :
    Decidable (Settled config statics) :=
  inferInstanceAs (Decidable (_ = _))

/-- Invocations with unchanged configuration ports. In each of them a phit
waits or none does. -/
def steadyRun (config : Config) (offered : List (Option Axis250)) :
    List Invocation :=
  offered.map (Invocation.mk config)

theorem insert_lookup (hash : ToeplitzHash) (ip : BitVec 32)
    (port : BitVec 16) : hash.insert ip port (hash.lookup ip port) = hash := by
  rw [ToeplitzHash.insert, ToeplitzHash.lookup, Function.update_eq_self]

theorem step_idle_of_settled {config : Config} {device : Device}
    (settled : Settled config device.statics) :
    (hardware.step device ⟨config, none⟩).1.statics = device.statics := by
  rw [hardware_step_idle, ← settled, insert_lookup]

theorem Settled.step {config : Config} {device : Device}
    (settled : Settled config device.statics) (sAxis : Option Axis250) :
    Settled config (hardware.step device ⟨config, sAxis⟩).1.statics := by
  cases sAxis with
  | none =>
      rw [step_idle_of_settled settled]
      exact settled
  | some phit =>
      rw [hardware_step_phit]
      exact settled

theorem step_phit_of_statics (config : Config) (phit : Axis250)
    {device device' : Device} (same : device.statics = device'.statics) :
    (hardware.step device ⟨config, some phit⟩).1.statics =
        (hardware.step device' ⟨config, some phit⟩).1.statics ∧
      (hardware.step device ⟨config, some phit⟩).2 =
        (hardware.step device' ⟨config, some phit⟩).2 := by
  rw [hardware_step_phit, hardware_step_phit, same]
  exact ⟨rfl, rfl⟩

theorem filter_isSome_eq_map_reduceOption (offered : List (Option Axis250)) :
    (offered.filter fun sAxis => !sAxis.isNone) =
      offered.reduceOption.map some := by
  induction offered with
  | nil => rfl
  | cons sAxis rest induction =>
      cases sAxis with
      | none => exact induction
      | some phit => exact congrArg (some phit :: ·) induction

theorem steadyRun_without_bubbles {config : Config} {device : Device}
    (settled : Settled config device.statics)
    (offered : List (Option Axis250)) :
    (hardware.run device (steadyRun config offered)).statics =
        (hardware.run device
          (steadyRun config (offered.reduceOption.map some))).statics ∧
      (hardware.outputs device (steadyRun config offered)).flatten =
        (hardware.outputs device
          (steadyRun config (offered.reduceOption.map some))).flatten := by
  have removed := (hardware.comap (Invocation.mk config)).run_without_silent
    Device.statics (Settled config) Option.isNone
    (fun device sAxis settled idle => by
      rcases Option.isNone_iff_eq_none.mp idle with rfl
      exact ⟨step_idle_of_settled settled, rfl⟩)
    (fun device sAxis settled => settled.step sAxis)
    (fun device device' sAxis same waits => by
      cases sAxis with
      | none => cases waits
      | some phit => exact step_phit_of_statics config phit same)
    settled rfl offered
  rw [filter_isSome_eq_map_reduceOption] at removed
  simp only [Mealy.run_comap, Mealy.outputs_comap] at removed
  exact removed

/-- Where the bubbles stand among the phits, and how many there are, makes no
difference to what is written and to the static variables. -/
theorem bubbles_invisible (config : Config) (device : Device)
    (settled : Settled config device.statics)
    (offered offered' : List (Option Axis250))
    (samePhits : offered.reduceOption = offered'.reduceOption) :
    (hardware.outputs device (steadyRun config offered)).flatten =
        (hardware.outputs device (steadyRun config offered')).flatten ∧
      (hardware.run device (steadyRun config offered)).statics =
        (hardware.run device (steadyRun config offered')).statics := by
  have first := steadyRun_without_bubbles settled offered
  have second := steadyRun_without_bubbles settled offered'
  rw [samePhits] at first
  exact ⟨first.2.trans second.2.symm, first.1.trans second.1.symm⟩

/-- The rule is in the table after one idle invocation. A bubble follows the first
phit of the packet, another one follows the second. -/
theorem bubbles_invisible_sample :
    let config : Config := ⟨0x0102A8C0, 0x3421, 1⟩
    let device := after [⟨config, none⟩]
    let first : Axis250 := ⟨0, 0, 0, false⟩
    let second : Axis250 := ⟨0, 0, 0, true⟩
    let offered := [some first, none, some second, none]
    let offered' := [some first, some second]
    (hardware.outputs device (steadyRun config offered)).flatten =
        (hardware.outputs device (steadyRun config offered')).flatten ∧
      (hardware.run device (steadyRun config offered)).statics =
        (hardware.run device (steadyRun config offered')).statics :=
  bubbles_invisible ⟨0x0102A8C0, 0x3421, 1⟩ (after [⟨⟨0x0102A8C0, 0x3421, 1⟩, none⟩])
    (by decide +kernel) _ _ rfl

end PacketFilter.Contracts
