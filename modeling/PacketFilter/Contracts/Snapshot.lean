import PacketFilter.Contracts.Counters
import PacketFilter.Software.ShowStats

/-! # Statistics snapshots

The software reads the four counters one after the other while the hardware may
publish new ones in between.
-/

namespace PacketFilter.Contracts

open Hardware Software

/-! ## Reading while the hardware runs -/

def statsRegister (stats : Statistics) (offset : BitVec 32) : BitVec 64 :=
  if offset = statsPktInReg then stats.pktIn
  else if offset = statsPhitInReg then stats.phitIn
  else if offset = statsPktForwdReg then stats.pktForward
  else if offset = statsPktDropReg then stats.pktDrop
  else 0

/-- The device, and the invocations that happen before each of the next reads. -/
abbrev Polling := StateM (Device × List (List Invocation))

def readStats (offset : BitVec 32) : Polling (BitVec 64) :=
  fun (device, gaps) =>
    let reached := hardware.run device (gaps.headD [])
    (statsRegister reached.stats offset, (reached, gaps.tail))

theorem run_readStats {Result : Type} (offset : BitVec 32)
    (next : BitVec 64 → Polling Result) (device : Device)
    (gap : List Invocation) (gaps : List (List Invocation)) :
    (readStats offset >>= next).run (device, gap :: gaps) =
      (next (statsRegister (hardware.run device gap).stats offset)).run
        (hardware.run device gap, gaps) := rfl

/-- Where the four reads of one report fall among the invocations. -/
structure ReadTimes where
  before : List Invocation
  second : List Invocation
  third : List Invocation
  fourth : List Invocation

namespace ReadTimes

def between (times : ReadTimes) : List Invocation :=
  times.second ++ times.third ++ times.fourth

def reported (times : ReadTimes) : Option StatsReport :=
  ((showStats readStats).run (Device.initial,
    [times.before, times.second, times.third, times.fourth])).1

def values (times : ReadTimes) : StatsReport where
  pktIn := (after times.before).stats.pktIn
  phitIn := (after (times.before ++ times.second)).stats.phitIn
  pktForwd :=
    (after (times.before ++ (times.second ++ times.third))).stats.pktForward
  pktDrop := (after (times.before ++ times.between)).stats.pktDrop

theorem reported_eq (times : ReadTimes) :
    times.reported =
      if times.values.pktIn = 0 ∧ times.values.pktForwd = 0 ∧
          times.values.pktDrop = 0 then none
      else some times.values := by
  simp only [values, between, after, Mealy.run_append]
  rw [reported, showStats, run_readStats, run_readStats, run_readStats,
    run_readStats]
  split
  · next silent => exact (if_pos silent).symm
  · next loud => exact (if_neg loud).symm

/-- The idle invocations between the first read and the last publish what stood
in the registers at the first read. -/
def Quiet (times : ReadTimes) : Prop :=
  ∀ earlier config later, times.between = earlier ++ ⟨config, none⟩ :: later →
    (after (times.before ++ earlier)).statics.localStats =
      (after times.before).stats

end ReadTimes

/-! ## Publications -/

def snapshot (stats : Statistics) : StatsReport :=
  ⟨stats.pktIn, stats.phitIn, stats.pktForward, stats.pktDrop⟩

/-- The last idle invocation of a run published these statistics. -/
def Published (run : List Invocation) (stats : Statistics) : Prop :=
  ∃ earlier config later, run = earlier ++ ⟨config, none⟩ :: later ∧
    idleConfigs later = [] ∧ stats = (after earlier).statics.localStats

/-- What can be read after a run: the last publication, or zeros when there was
none. -/
def Shows (run : List Invocation) (stats : Statistics) : Prop :=
  Published run stats ∨ idleConfigs run = [] ∧ stats = .initial

theorem stats_concat_idle (run : List Invocation) (config : Config) :
    (after (run ++ [⟨config, none⟩])).stats =
      (after run).statics.localStats := by
  rw [after, Mealy.run_concat, hardware_step_idle, after]

theorem stats_concat_phit (run : List Invocation) (config : Config)
    (phit : Axis250) :
    (after (run ++ [⟨config, some phit⟩])).stats = (after run).stats := by
  rw [after, Mealy.run_concat, hardware_step_phit, after]

theorem shows_stats (run : List Invocation) : Shows run (after run).stats := by
  induction run using List.reverseRecOn with
  | nil => exact .inr ⟨rfl, rfl⟩
  | append_singleton run invocation induction =>
      rcases invocation with ⟨config, sAxis⟩
      cases sAxis with
      | none =>
          rw [stats_concat_idle]
          exact .inl ⟨run, config, [], rfl, rfl, rfl⟩
      | some phit =>
          rw [stats_concat_phit]
          rcases induction with ⟨earlier, last, later, rfl, busy, isLast⟩ | none
          · refine .inl ⟨earlier, last, later ++ [⟨config, some phit⟩], ?_, ?_,
              isLast⟩
            · rw [List.append_assoc, List.cons_append]
            · rw [idleConfigs_append, busy]
              rfl
          · refine .inr ⟨?_, none.2⟩
            rw [idleConfigs_append, none.1]
            rfl

theorem Published.balanced {run : List Invocation} {stats : Statistics}
    (published : Published run stats) : Balanced stats := by
  rcases published with ⟨earlier, config, later, -, -, rfl⟩
  exact (counts_after earlier).balanced

namespace ReadTimes

theorem Quiet.stats {times : ReadTimes} (quiet : times.Quiet)
    (earlier : List Invocation) (within : earlier <+: times.between) :
    (after (times.before ++ earlier)).stats = (after times.before).stats := by
  induction earlier using List.reverseRecOn with
  | nil => rw [List.append_nil]
  | append_singleton earlier invocation induction =>
      rcases within with ⟨later, isBetween⟩
      have split : times.between = earlier ++ invocation :: later := by
        rw [← isBetween, List.append_assoc, List.singleton_append]
      rcases invocation with ⟨config, sAxis⟩
      rw [← List.append_assoc]
      cases sAxis with
      | none =>
          rw [stats_concat_idle]
          exact quiet earlier config later split
      | some phit =>
          rw [stats_concat_phit]
          exact induction ⟨_, split.symm⟩

theorem Quiet.values {times : ReadTimes} (quiet : times.Quiet) :
    times.values = snapshot (after times.before).stats := by
  have whole : times.between =
      times.second ++ (times.third ++ times.fourth) := List.append_assoc _ _ _
  have second := quiet.stats times.second ⟨_, whole.symm⟩
  have third := quiet.stats (times.second ++ times.third) ⟨_, rfl⟩
  have fourth := quiet.stats times.between (List.prefix_refl times.between)
  simp only [ReadTimes.values, snapshot, second, third, fourth]

theorem values_of_reported {times : ReadTimes} {report : StatsReport}
    (reports : times.reported = some report) :
    times.values = report ∧ ¬ (report.pktIn = 0 ∧ report.pktForwd = 0 ∧
      report.pktDrop = 0) := by
  rw [reported_eq] at reports
  split at reports
  · cases reports
  · next loud =>
      rcases Option.some.inj reports with rfl
      exact ⟨rfl, loud⟩

theorem Quiet.published {times : ReadTimes} (quiet : times.Quiet)
    {report : StatsReport} (reports : times.reported = some report) :
    Published times.before (after times.before).stats ∧
      report = snapshot (after times.before).stats := by
  rcases values_of_reported reports with ⟨rfl, loud⟩
  refine ⟨?_, quiet.values⟩
  rcases shows_stats times.before with published | ⟨-, initial⟩
  · exact published
  · rw [quiet.values, initial] at loud
    exact absurd ⟨rfl, rfl, rfl⟩ loud

end ReadTimes

/-- Each reported counter is that of the last publication before its own read.
When nothing new is published between the first read and the last, the report
is one published value and its packet counters balance. -/
theorem statistics_reported (times : ReadTimes) (report : StatsReport)
    (reports : times.reported = some report) :
    (∃ stats, Shows times.before stats ∧ report.pktIn = stats.pktIn) ∧
      (∃ stats, Shows (times.before ++ times.second) stats ∧
        report.phitIn = stats.phitIn) ∧
      (∃ stats, Shows (times.before ++ (times.second ++ times.third)) stats ∧
        report.pktForwd = stats.pktForward) ∧
      (∃ stats, Shows (times.before ++ times.between) stats ∧
        report.pktDrop = stats.pktDrop) ∧
      (times.Quiet → ∃ stats, Published times.before stats ∧
        report = snapshot stats ∧
        report.pktIn = report.pktForwd + report.pktDrop) := by
  rcases ReadTimes.values_of_reported reports with ⟨isReport, -⟩
  rw [← isReport]
  refine ⟨⟨_, shows_stats _, rfl⟩, ⟨_, shows_stats _, rfl⟩,
    ⟨_, shows_stats _, rfl⟩, ⟨_, shows_stats _, rfl⟩, ?_⟩
  intro quiet
  rcases quiet.published reports with ⟨published, -⟩
  refine ⟨_, published, quiet.values, ?_⟩
  rw [quiet.values]
  exact published.balanced

/-- One packet, which no rule forwards, and the publication behind it. -/
def countedPacket : List Invocation :=
  [⟨⟨0, 0, 0⟩, some (blankPhit true)⟩, ⟨⟨0, 0, 0⟩, none⟩]

/-- Between the reads the same counters are published again, and a packet arrives
that is published later. -/
theorem statistics_reported_sample :
    ∃ stats, Published countedPacket stats ∧
      (⟨1, 1, 0, 1⟩ : StatsReport) = snapshot stats ∧ (1 : BitVec 64) = 0 + 1 :=
  have reads := statistics_reported
    ⟨countedPacket, [⟨⟨0, 0, 0⟩, none⟩], [⟨⟨0, 0, 0⟩, some (blankPhit true)⟩], []⟩
    ⟨1, 1, 0, 1⟩ (by decide +kernel)
  reads.2.2.2.2 fun earlier config later between => by
    rcases earlier with _ | ⟨first, _ | ⟨second, rest⟩⟩
    · decide +kernel
    · cases between
    · cases rest <;> cases between

/-- A packet that is counted between the first read and the others shows as
dropped but not as received. -/
theorem not_statistics_one_snapshot :
    ¬ ∀ (times : ReadTimes) (report : StatsReport),
      times.reported = some report →
        ∃ earlier config later,
          times.before ++ times.between = earlier ++ ⟨config, none⟩ :: later ∧
            report = snapshot (after earlier).statics.localStats := by
  intro consistent
  rcases consistent ⟨countedPacket, countedPacket, [], []⟩ ⟨1, 2, 0, 2⟩
    (by decide +kernel) with ⟨earlier, config, later, -, isSnapshot⟩
  have balanced : (1 : BitVec 64) = 0 + 2 := by
    have counted := (counts_after earlier).balanced
    rw [Balanced] at counted
    have fields := isSnapshot
    rw [snapshot, StatsReport.mk.injEq] at fields
    rw [fields.1, fields.2.2.1, fields.2.2.2]
    exact counted
  exact absurd balanced (by decide)

end PacketFilter.Contracts
