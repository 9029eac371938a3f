import PacketFilter.Contracts.Datapath

/-! # Counter contract

What the packet counters say about a run, and what software can read of them.
-/

namespace PacketFilter.Contracts

open Hardware

def consumedPhits (run : List Invocation) : List Axis250 :=
  run.filterMap Invocation.sAxis

def packetEnds (phits : List Axis250) : BitVec 64 :=
  BitVec.ofNat 64 (phits.countP Axis250.last)

theorem packetEnds_append (first second : List Axis250) :
    packetEnds (first ++ second) = packetEnds first + packetEnds second := by
  simp [packetEnds, BitVec.ofNat_add]

theorem packetEnds_singleton (phit : Axis250) :
    packetEnds [phit] = if phit.last then 1 else 0 := by
  cases marked : phit.last <;> simp [packetEnds, marked]

def Balanced (stats : Statistics) : Prop :=
  stats.pktIn = stats.pktForward + stats.pktDrop

/-- The counters of a history that consumed `consumed` and wrote `written`. -/
structure Counts (stats : Statistics) (consumed written : List Axis250) :
    Prop where
  pktIn : stats.pktIn = packetEnds consumed
  pktForward : stats.pktForward = packetEnds written
  balanced : Balanced stats

theorem Counts.initial : Counts .initial [] [] := ⟨rfl, rfl, rfl⟩

theorem countPacket_pktForward (stats : Statistics)
    (phitIdx tableAction : BitVec 32) :
    (stats.countPacket phitIdx tableAction).pktForward =
      stats.pktForward + if tableAction = 1 then 1 else 0 := by
  rw [Statistics.countPacket]
  split
  · rfl
  · exact (BitVec.add_zero _).symm

theorem Balanced.countPacket {stats : Statistics} (balanced : Balanced stats)
    (phitIdx tableAction : BitVec 32) :
    Balanced (stats.countPacket phitIdx tableAction) := by
  have before : stats.pktIn = stats.pktForward + stats.pktDrop := balanced
  rw [Balanced, Statistics.countPacket, before]
  by_cases forwarded : tableAction = 1
  · simp only [if_pos forwarded, BitVec.add_assoc,
      BitVec.add_comm 1 stats.pktDrop]
  · simp only [if_neg forwarded, BitVec.add_assoc]

theorem packetEnds_written (phit : Axis250) (tableAction : BitVec 32) :
    packetEnds (if tableAction = 1 then [phit] else []) =
      if phit.last then (if tableAction = 1 then 1 else 0) else 0 := by
  split
  · exact packetEnds_singleton phit
  · rw [ite_self]
    rfl

theorem Counts.step_phit {stats : Statistics} {consumed written : List Axis250}
    (counts : Counts stats consumed written) (phit : Axis250)
    (tableAction : BitVec 32) :
    Counts
      (if phit.last then stats.countPacket 0 tableAction else stats)
      (consumed ++ [phit])
      (written ++ if tableAction = 1 then [phit] else []) := by
  have ends := packetEnds_written phit tableAction
  cases marked : phit.last with
  | false =>
      rw [marked] at ends
      refine ⟨?_, ?_, counts.balanced⟩
      · rw [packetEnds_append, packetEnds_singleton, marked, ← counts.pktIn]
        exact (BitVec.add_zero _).symm
      · rw [packetEnds_append, ends, ← counts.pktForward]
        exact (BitVec.add_zero _).symm
  | true =>
      rw [marked] at ends
      refine ⟨?_, ?_, counts.balanced.countPacket 0 tableAction⟩
      · rw [packetEnds_append, packetEnds_singleton, marked, ← counts.pktIn]
        rfl
      · rw [packetEnds_append, ends, ← counts.pktForward]
        exact countPacket_pktForward stats 0 tableAction

theorem counts_after (run : List Invocation) :
    Counts (after run).statics.localStats (consumedPhits run)
      (writtenToMAxis run) := by
  induction run using List.reverseRecOn with
  | nil => exact Counts.initial
  | append_singleton run invocation induction =>
      rcases invocation with ⟨config, sAxis⟩
      rw [writtenToMAxis, Mealy.outputs_concat, List.flatten_append,
        List.flatten_singleton, ← writtenToMAxis, after, Mealy.run_concat,
        ← after, consumedPhits, List.filterMap_append, ← consumedPhits]
      cases sAxis with
      | none =>
          rw [hardware_step_idle]
          simpa using induction
      | some phit =>
          rw [hardware_step_phit]
          exact induction.step_phit phit _

/-! ## Publication -/

theorem stats_run_of_no_idle (device : Device) {run : List Invocation}
    (busy : idleConfigs run = []) :
    (hardware.run device run).stats = device.stats := by
  induction run generalizing device with
  | nil => rfl
  | cons invocation rest induction =>
      rcases invocation with ⟨config, sAxis⟩
      cases sAxis with
      | none => simp [idleConfigs] at busy
      | some phit =>
          have later : idleConfigs rest = [] := by
            simpa [idleConfigs] using busy
          rw [Mealy.run, induction _ later, hardware_step_phit]

theorem stats_after_idle (before rest : List Invocation) (config : Config)
    (busy : idleConfigs rest = []) :
    (after (before ++ ⟨config, none⟩ :: rest)).stats =
      (after before).statics.localStats := by
  rw [after, Mealy.run_append, Mealy.run, stats_run_of_no_idle _ busy,
    hardware_step_idle, after]

/-- In every reachable state the packet counters agree with the streams and
balance, and what software reads is the value they had at the most recent idle
invocation. -/
theorem packet_counters (run : List Invocation) :
    (after run).statics.localStats.pktIn = packetEnds (consumedPhits run) ∧
      (after run).statics.localStats.pktForward =
        packetEnds (writtenToMAxis run) ∧
      Balanced (after run).statics.localStats ∧
      ∀ before config rest, run = before ++ ⟨config, none⟩ :: rest →
        idleConfigs rest = [] →
        (after run).stats = (after before).statics.localStats ∧
          Balanced (after run).stats := by
  have counts := counts_after run
  refine ⟨counts.pktIn, counts.pktForward, counts.balanced, ?_⟩
  rintro before config rest rfl busy
  rw [stats_after_idle before rest config busy]
  exact ⟨rfl, (counts_after before).balanced⟩

def blankPhit (last : Bool) : Axis250 := ⟨0, 0, 0, last⟩

theorem packet_counters_sample :
    (after [⟨⟨0, 0, 1⟩, some (blankPhit false)⟩, ⟨⟨0, 0, 1⟩, none⟩,
        ⟨⟨0, 0, 1⟩, some (blankPhit true)⟩]).stats =
      (after [⟨⟨0, 0, 1⟩, some (blankPhit false)⟩]).statics.localStats :=
  ((packet_counters _).2.2.2 [⟨⟨0, 0, 1⟩, some (blankPhit false)⟩] ⟨0, 0, 1⟩
    [⟨⟨0, 0, 1⟩, some (blankPhit true)⟩] rfl rfl).1

/-! ## Phits -/

/-- Nothing was consumed yet, or the last consumed phit ended its packet. -/
def BetweenPackets (run : List Invocation) : Prop :=
  ∀ phit ∈ (consumedPhits run).getLast?, phit.last = true

def innerPhits (run : List Invocation) : Nat :=
  (consumedPhits run).countP fun phit => !phit.last

def PhitsCounted (run : List Invocation) : Prop :=
  (after run).statics.localStats.phitIn =
    BitVec.ofNat 64 (consumedPhits run).length

instance (run : List Invocation) : Decidable (BetweenPackets run) :=
  inferInstanceAs (Decidable (∀ phit ∈ (consumedPhits run).getLast?, _))

instance (run : List Invocation) : Decidable (PhitsCounted run) :=
  inferInstanceAs (Decidable (_ = _))

theorem countPacket_phitIn (stats : Statistics) (tableAction : BitVec 32) :
    (stats.countPacket 0 tableAction).phitIn = stats.phitIn + 1 := rfl

/-- The index is back at 0 when it is added up, so a packet adds 1 whatever its
length. -/
theorem phitIn_after (run : List Invocation) :
    (after run).statics.localStats.phitIn = packetEnds (consumedPhits run) := by
  induction run using List.reverseRecOn with
  | nil => rfl
  | append_singleton run invocation induction =>
      rcases invocation with ⟨config, sAxis⟩
      rw [after, Mealy.run_concat, ← after, consumedPhits,
        List.filterMap_append, ← consumedPhits, packetEnds_append, ← induction]
      cases sAxis with
      | none =>
          rw [hardware_step_idle]
          exact (BitVec.add_zero _).symm
      | some phit =>
          have single : packetEnds (consumedPhits [⟨config, some phit⟩]) =
              if phit.last then 1 else 0 := packetEnds_singleton phit
          rw [hardware_step_phit, ← consumedPhits, single]
          cases marked : phit.last with
          | true => exact countPacket_phitIn _ _
          | false => exact (BitVec.add_zero _).symm

theorem length_consumedPhits (run : List Invocation) :
    (consumedPhits run).length =
      (consumedPhits run).countP Axis250.last + innerPhits run := by
  rw [List.length_eq_countP_add_countP Axis250.last]
  simp only [innerPhits, Bool.not_eq_true, Bool.decide_eq_false]

theorem phitsCounted_iff_dvd (run : List Invocation) :
    PhitsCounted run ↔ 2 ^ 64 ∣ innerPhits run := by
  rw [PhitsCounted, phitIn_after, packetEnds, length_consumedPhits,
    BitVec.toNat_eq, BitVec.toNat_ofNat, BitVec.toNat_ofNat]
  exact Nat.left_modEq_add_iff

/-- Below `2 ^ 64` phits the counter is right just when every packet consists of
a single phit. -/
theorem phitsCounted_iff_single {run : List Invocation}
    (few : (consumedPhits run).length < 2 ^ 64) :
    PhitsCounted run ↔ ∀ phit ∈ consumedPhits run, phit.last = true := by
  have small : innerPhits run < 2 ^ 64 :=
    List.countP_le_length.trans_lt few
  have none : 2 ^ 64 ∣ innerPhits run ↔ innerPhits run = 0 :=
    ⟨fun divides => Nat.eq_zero_of_dvd_of_lt divides small,
      fun zero => zero ▸ Nat.dvd_zero _⟩
  rw [phitsCounted_iff_dvd, none, innerPhits, List.countP_eq_zero]
  simp

/-- The phit counter is right in all states between two packets of a run
exactly when the phits it leaves out come to a multiple of `2 ^ 64` there. -/
theorem phits_counted_iff (run : List Invocation) :
    (∀ earlier, earlier <+: run → BetweenPackets earlier →
        PhitsCounted earlier) ↔
      ∀ earlier, earlier <+: run → BetweenPackets earlier →
        2 ^ 64 ∣ innerPhits earlier :=
  forall₃_congr fun earlier _ _ => phitsCounted_iff_dvd earlier

/-- A packet of two phits is counted as one phit. -/
theorem not_phits_counted :
    ¬ ∀ run, BetweenPackets run → PhitsCounted run := by
  intro counted
  have twoPhits := counted [⟨⟨0, 0, 0⟩, some (blankPhit false)⟩,
    ⟨⟨0, 0, 0⟩, some (blankPhit true)⟩]
  revert twoPhits
  decide

end PacketFilter.Contracts
