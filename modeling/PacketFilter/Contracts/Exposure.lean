import PacketFilter.Contracts.Delivery
import PacketFilter.Contracts.HashBalance

/-! # Exposure contracts

How many of all addresses are let through for a list of filters.
-/

namespace PacketFilter.Contracts

open Hardware Software Interleaving Platform

/-! ## Slots of a list of filters -/

def touchedSlots (filters : List ValidAddress) : Finset (Fin hashTableSize) :=
  ((forwardedAddresses filters).map addressSlot).toFinset

theorem touched_iff_mem_touchedSlots (filters : List ValidAddress)
    (address : Address) :
    Touched filters address ↔ addressSlot address ∈ touchedSlots filters :=
  List.mem_toFinset.symm

theorem length_forwardedAddresses (filters : List ValidAddress) :
    (forwardedAddresses filters).length = 2 * filters.length - 1 := by
  induction filters with
  | nil => rfl
  | cons filter rest induction =>
      cases rest with
      | nil => rfl
      | cons next others =>
          simp only [forwardedAddresses, List.length_cons] at induction ⊢
          omega

theorem card_touchedSlots_le (filters : List ValidAddress) :
    (touchedSlots filters).card ≤ 2 * filters.length - 1 := by
  have fewer := List.toFinset_card_le
    ((forwardedAddresses filters).map addressSlot)
  rwa [List.length_map, length_forwardedAddresses] at fewer

theorem finite_address : Finite Address :=
  Nat.finite_of_card_ne_zero (by rw [card_key]; decide)

theorem card_touched (filters : List ValidAddress) :
    Nat.card { address // Touched filters address } =
      (touchedSlots filters).card * 2 ^ 43 := by
  have finite := finite_address
  simp only [touched_iff_mem_touchedSlots]
  exact Fibres.card_preimage addressSlot card_slot (touchedSlots filters)

/-! ## Policies from power-up on -/

theorem mem_policy_of_touched {filters : List ValidAddress}
    (schedule : Schedule (filterWrites filters))
    (paced : Paced Option.isNone schedule.trace) {address : Address}
    (touched : Touched filters address) :
    address ∈ policy (platform.run powerUp schedule.trace) :=
  (mem_policy_iff powerUp schedule paced address).mpr (.inl touched)

/-- At every moment from power-up on, of all `2 ^ 48` addresses at most `2 ^ 43`
for each slot of the filters are let through, and in the end exactly as many if
an idle invocation follows every write. -/
theorem exposure (filters : List ValidAddress)
    (schedule : Schedule (filterWrites filters)) :
    (∀ reached, reached <+: schedule.trace →
        Nat.card (policy (platform.run powerUp reached)) ≤
          (touchedSlots filters).card * 2 ^ 43) ∧
      (Paced Option.isNone schedule.trace →
        Nat.card (policy (platform.run powerUp schedule.trace)) =
          (touchedSlots filters).card * 2 ^ 43) ∧
      (touchedSlots filters).card ≤ 2 * filters.length - 1 := by
  have finite := finite_address
  have least : ∀ reached, reached <+: schedule.trace →
      Nat.card (policy (platform.run powerUp reached)) ≤
        (touchedSlots filters).card * 2 ^ 43 := by
    intro reached within
    have covered : writes reached <+: filterWrites filters := by
      rw [← schedule.performs]
      exact within.filterMap _
    have opened : policy (platform.run powerUp reached) ⊆
        {address | Touched filters address} :=
      fun address member => Box.touched_of_mem_policy covered member
    rw [← card_touched]
    exact Nat.card_mono (Set.toFinite _) opened
  refine ⟨least, fun paced => ?_, card_touchedSlots_le filters⟩
  have opened : {address | Touched filters address} ⊆
      policy (platform.run powerUp schedule.trace) :=
    fun address touched => mem_policy_of_touched schedule paced touched
  apply (least _ (List.prefix_refl _)).antisymm
  rw [← card_touched]
  exact Nat.card_mono (Set.toFinite _) opened

theorem exposure_sample :
    Nat.card (policy (platform.run powerUp
        (idleAfterEach (filterWrites sampleFilters)).trace)) =
      (touchedSlots sampleFilters).card * 2 ^ 43 :=
  (exposure sampleFilters (idleAfterEach _)).2.1 (paced_idleAfterEach _)

end PacketFilter.Contracts
