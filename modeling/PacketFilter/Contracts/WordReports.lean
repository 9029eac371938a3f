import PacketFilter.Contracts.CounterReads

/-! # Reports made of words

`show_stats` with its four counters read in eight accesses, between any of which
the hardware may be invoked.
-/

namespace PacketFilter.Contracts.WordReports

open Hardware Software

/-! ## Counted packets -/

/-- The packets that have arrived completely. -/
def arrived (run : List Invocation) : Nat :=
  (consumedPhits run).countP Axis250.last

/-- The packets of which the last phit has been let through. -/
def through (run : List Invocation) : Nat :=
  (writtenToMAxis run).countP Axis250.last

theorem consumedPhits_append (run later : List Invocation) :
    consumedPhits (run ++ later) = consumedPhits run ++ consumedPhits later :=
  List.filterMap_append

theorem arrived_append (run later : List Invocation) :
    arrived (run ++ later) =
      arrived run + (consumedPhits later).countP Axis250.last := by
  rw [arrived, consumedPhits_append, List.countP_append, arrived]

theorem countP_outputs_le (device : Device) (run : List Invocation) :
    (hardware.outputs device run).flatten.countP Axis250.last ≤
      (consumedPhits run).countP Axis250.last := by
  induction run generalizing device with
  | nil => exact le_rfl
  | cons invocation rest induction =>
      have later := induction (hardware.step device invocation).1
      rw [Mealy.outputs, List.flatten_cons, List.countP_append]
      rcases invocation with ⟨config, _ | phit⟩
      · have consumed : consumedPhits (⟨config, none⟩ :: rest) =
            consumedPhits rest := rfl
        have silent : (hardware.step device ⟨config, none⟩).2 = [] := rfl
        rw [consumed, silent, List.countP_nil, Nat.zero_add]
        exact later
      · have consumed : consumedPhits (⟨config, some phit⟩ :: rest) =
            phit :: consumedPhits rest := rfl
        rw [consumed, List.countP_cons, hardware_output_phit]
        by_cases emitted : device.statics.actionAt phit = 1
        · rw [if_pos emitted, List.countP_singleton]
          omega
        · rw [if_neg emitted, List.countP_nil]
          omega

theorem through_append (run later : List Invocation) :
    through run ≤ through (run ++ later) ∧
      arrived run + through (run ++ later) ≤
        arrived (run ++ later) + through run := by
  have more := countP_outputs_le (hardware.run Device.initial run) later
  rw [through, through, arrived_append, writtenToMAxis, writtenToMAxis,
    Mealy.outputs_append, List.flatten_append, List.countP_append]
  omega

theorem through_le_arrived (run : List Invocation) :
    through run ≤ arrived run :=
  countP_outputs_le Device.initial run

theorem toNat_counters {run : List Invocation} (few : arrived run < 2 ^ 64) :
    let stats := (after run).statics.localStats
    stats.pktIn.toNat = arrived run ∧ stats.phitIn.toNat = arrived run ∧
      stats.pktForward.toNat = through run ∧
      stats.pktDrop.toNat = arrived run - through run := by
  have counts := counts_after run
  have fewer := through_le_arrived run
  have received : (after run).statics.localStats.pktIn.toNat = arrived run := by
    rw [counts.pktIn, packetEnds, BitVec.toNat_ofNat]
    exact Nat.mod_eq_of_lt few
  have phits : (after run).statics.localStats.phitIn.toNat = arrived run := by
    rw [phitIn_after, ← counts.pktIn, received]
  have forwarded : (after run).statics.localStats.pktForward.toNat =
      through run := by
    rw [counts.pktForward, packetEnds, BitVec.toNat_ofNat]
    exact Nat.mod_eq_of_lt (fewer.trans_lt few)
  refine ⟨received, phits, forwarded, ?_⟩
  have balanced := congrArg BitVec.toNat counts.balanced
  have bound := (after run).statics.localStats.pktDrop.isLt
  rw [BitVec.toNat_add, received, forwarded] at balanced
  omega

/-! ## Publications -/

theorem exists_shown (run : List Invocation) :
    ∃ shown, shown <+: run ∧
      (after run).stats = (after shown).statics.localStats := by
  rcases shows_stats run with ⟨earlier, _, _, rfl, _, published⟩ | ⟨_, initial⟩
  · exact ⟨earlier, List.prefix_append _ _, published⟩
  · exact ⟨[], List.nil_prefix, initial⟩

theorem exists_shown_later {run longer shown : List Invocation}
    (part : shown <+: run)
    (shows : (after run).stats = (after shown).statics.localStats)
    (continues : run <+: longer) :
    ∃ shown', shown <+: shown' ∧ shown' <+: longer ∧
      (after longer).stats = (after shown').statics.localStats := by
  rcases continues with ⟨later, rfl⟩
  induction later using List.reverseRecOn with
  | nil =>
      rw [List.append_nil]
      exact ⟨shown, List.prefix_rfl, part, shows⟩
  | append_singleton later invocation induction =>
      rw [← List.append_assoc]
      rcases invocation with ⟨config, _ | phit⟩
      · refine ⟨run ++ later, ?_, List.prefix_append _ _, ?_⟩
        · exact part.trans (List.prefix_append _ _)
        · exact stats_concat_idle _ config
      · rcases induction with ⟨shown', longer, within, shows'⟩
        refine ⟨shown', longer, within.trans (List.prefix_append _ _), ?_⟩
        rw [stats_concat_phit]
        exact shows'

/-! ## Eight accesses -/

/-- The invocations before the access to the lower word of a counter, and those
before the access to the upper word. -/
structure Accesses where
  lower : List Invocation
  upper : List Invocation

structure WordTimes where
  pktIn : Accesses
  phitIn : Accesses
  pktForwd : Accesses
  pktDrop : Accesses

/-- `MMIO::read<uint64_t>` of a counter of the core. -/
def readWords (offset : BitVec 32) :
    ExceptT (List Char) (Interleaved Device Invocation) (BitVec 64) :=
  Software.read (fun address => Interleaved.access hardware.run
    (statsWord address)) baseAddr .uint64 offset

theorem run_readWords {Result : Type} {offset : BitVec 32}
    (isStats : offset ∈ statsRegs)
    (next : BitVec 64 → ExceptT (List Char) (Interleaved Device Invocation) Result)
    (device : Device) (accesses : Accesses) (gaps : List (List Invocation)) :
    let first := hardware.run device accesses.lower
    let second := hardware.run first accesses.upper
    (readWords offset >>= next).run.run
        (device, accesses.lower :: accesses.upper :: gaps) =
      (next (SplitRead.mixture words (statsRegister first.stats offset)
        (statsRegister second.stats offset))).run.run (second, gaps) := by
  have wide : ¬ Integral.uint64.bits ≤ 32 := by decide
  have upper : baseAddr + (offset + 4) = baseAddr + offset + 4 :=
    (BitVec.add_assoc _ _ _).symm
  simp only [SplitRead.mixture]
  rw [readWords, read_of_wide wide, mmioRegRead_of_set baseAddr_ne_zero,
    mmioRegRead_of_set baseAddr_ne_zero, upper, ← statsWord_lower isStats,
    ← statsWord_upper isStats]
  rfl

/-! ## Few packets -/

theorem arrived_mono {run longer : List Invocation} (part : run <+: longer) :
    arrived run ≤ arrived longer := by
  rcases part with ⟨later, rfl⟩
  rw [arrived_append]
  exact Nat.le_add_right _ _

theorem statsRegister_lt {run : List Invocation} (few : arrived run < 2 ^ 32)
    (offset : BitVec 32) :
    (statsRegister (after run).stats offset).toNat < 2 ^ 32 := by
  rcases exists_shown run with ⟨shown, part, shows⟩
  have fewer := (arrived_mono part).trans_lt few
  have counters := toNat_counters (fewer.trans (by decide))
  rw [shows]
  simp only [statsRegister]
  split
  · rw [counters.1]
    exact fewer
  · split
    · rw [counters.2.1]
      exact fewer
    · split
      · rw [counters.2.2.1]
        exact (through_le_arrived shown).trans_lt fewer
      · split
        · rw [counters.2.2.2]
          exact (Nat.sub_le _ _).trans_lt fewer
        · decide

theorem mixture_of_few {run between : List Invocation}
    (few : arrived (run ++ between) < 2 ^ 32) (offset : BitVec 32) :
    SplitRead.mixture words (statsRegister (after run).stats offset)
        (statsRegister (after (run ++ between)).stats offset) =
      statsRegister (after run).stats offset := by
  have fewer := (arrived_mono (List.prefix_append run between)).trans_lt few
  apply SplitRead.mixture_of_upper_eq
  apply BitVec.eq_of_toNat_eq
  rw [toNat_words_fst, toNat_words_fst,
    Nat.div_eq_of_lt (statsRegister_lt fewer offset),
    Nat.div_eq_of_lt (statsRegister_lt few offset)]

theorem run_readWords_after {Result : Type} {offset : BitVec 32}
    (isStats : offset ∈ statsRegs)
    (next : BitVec 64 → ExceptT (List Char) (Interleaved Device Invocation) Result)
    (run : List Invocation) (accesses : Accesses)
    (gaps : List (List Invocation))
    (few : arrived (run ++ accesses.lower ++ accesses.upper) < 2 ^ 32) :
    (readWords offset >>= next).run.run
        (after run, accesses.lower :: accesses.upper :: gaps) =
      (next (statsRegister (after (run ++ accesses.lower)).stats
        offset)).run.run
        (after (run ++ accesses.lower ++ accesses.upper), gaps) := by
  have read := run_readWords isStats next (after run) accesses gaps
  have first : hardware.run (after run) accesses.lower =
      after (run ++ accesses.lower) :=
    (hardware.run_append _ _ _).symm
  have second : hardware.run (after (run ++ accesses.lower)) accesses.upper =
      after (run ++ accesses.lower ++ accesses.upper) :=
    (hardware.run_append _ _ _).symm
  simp only [first, second] at read
  rw [read, mixture_of_few few]

/-! ## Reports -/

namespace WordTimes

variable (times : WordTimes)

def gaps : List (List Invocation) :=
  [times.pktIn.lower, times.pktIn.upper, times.phitIn.lower,
    times.phitIn.upper, times.pktForwd.lower, times.pktForwd.upper,
    times.pktDrop.lower, times.pktDrop.upper]

def readPktIn : List Invocation := times.pktIn.lower

def readPhitIn : List Invocation :=
  times.readPktIn ++ times.pktIn.upper ++ times.phitIn.lower

def readPktForwd : List Invocation :=
  times.readPhitIn ++ times.phitIn.upper ++ times.pktForwd.lower

def readPktDrop : List Invocation :=
  times.readPktForwd ++ times.pktForwd.upper ++ times.pktDrop.lower

def whole : List Invocation := times.readPktDrop ++ times.pktDrop.upper

def reported : Except (List Char) (Option StatsReport) :=
  ((showStats readWords).run.run (Device.initial, times.gaps)).1

def values : StatsReport where
  pktIn := (after times.readPktIn).stats.pktIn
  phitIn := (after times.readPhitIn).stats.phitIn
  pktForwd := (after times.readPktForwd).stats.pktForward
  pktDrop := (after times.readPktDrop).stats.pktDrop

theorem readPhitIn_prefix :
    times.readPktIn ++ times.pktIn.upper <+: times.readPhitIn :=
  List.prefix_append _ _

theorem readPktForwd_prefix :
    times.readPhitIn ++ times.phitIn.upper <+: times.readPktForwd :=
  List.prefix_append _ _

theorem readPktDrop_prefix :
    times.readPktForwd ++ times.pktForwd.upper <+: times.readPktDrop :=
  List.prefix_append _ _

theorem readPktDrop_whole : times.readPktDrop <+: times.whole :=
  List.prefix_append _ _

theorem readPktForwd_whole :
    times.readPktForwd ++ times.pktForwd.upper <+: times.whole :=
  times.readPktDrop_prefix.trans times.readPktDrop_whole

theorem readPhitIn_whole :
    times.readPhitIn ++ times.phitIn.upper <+: times.whole :=
  times.readPktForwd_prefix.trans
    ((List.prefix_append _ _).trans times.readPktForwd_whole)

theorem readPktIn_whole :
    times.readPktIn ++ times.pktIn.upper <+: times.whole :=
  times.readPhitIn_prefix.trans
    ((List.prefix_append _ _).trans times.readPhitIn_whole)

theorem reported_eq (few : arrived times.whole < 2 ^ 32) :
    times.reported =
      .ok (if times.values.pktIn = 0 ∧ times.values.pktForwd = 0 ∧
          times.values.pktDrop = 0 then none
        else some times.values) := by
  have fewAt {run : List Invocation} (part : run <+: times.whole) :
      arrived run < 2 ^ 32 :=
    (arrived_mono part).trans_lt few
  have start : (Device.initial, times.gaps) = (after [], times.gaps) := rfl
  have pktIn : [] ++ times.pktIn.lower = times.readPktIn := rfl
  have phitIn : times.readPktIn ++ times.pktIn.upper ++ times.phitIn.lower =
      times.readPhitIn := rfl
  have pktForwd : times.readPhitIn ++ times.phitIn.upper ++
      times.pktForwd.lower = times.readPktForwd := rfl
  have pktDrop : times.readPktForwd ++ times.pktForwd.upper ++
      times.pktDrop.lower = times.readPktDrop := rfl
  rw [reported, showStats, start, gaps,
    run_readWords_after (by decide) _ _ _ _ (fewAt times.readPktIn_whole), pktIn,
    run_readWords_after (by decide) _ _ _ _ (fewAt times.readPhitIn_whole),
    phitIn,
    run_readWords_after (by decide) _ _ _ _ (fewAt times.readPktForwd_whole),
    pktForwd, run_readWords_after (by decide) _ _ _ _ (fewAt List.prefix_rfl),
    pktDrop]
  split
  · next silent => exact congrArg Except.ok (if_pos silent).symm
  · next loud => exact congrArg Except.ok (if_neg loud).symm

end WordTimes

/-- The three counters of a report that are read one after the other account for
every packet that the first of them reports, and for no more than have arrived
when the last one is read. -/
theorem counters_balance {run longer longest : List Invocation}
    (continues : run <+: longer) (continues' : longer <+: longest)
    (few : arrived longest < 2 ^ 64) :
    (after run).stats.pktIn.toNat ≤
        (after longer).stats.pktForward.toNat +
          (after longest).stats.pktDrop.toNat ∧
      (after longer).stats.pktForward.toNat +
          (after longest).stats.pktDrop.toNat ≤
        arrived longest := by
  rcases exists_shown run with ⟨first, part, shows⟩
  rcases exists_shown_later part shows continues with
    ⟨second, isLonger, part', shows'⟩
  rcases exists_shown_later part' shows' continues' with
    ⟨third, isLongest, part'', shows''⟩
  have all := arrived_mono part''
  have fewThird := all.trans_lt few
  have fewSecond := (arrived_mono isLongest).trans_lt fewThird
  have fewFirst := (arrived_mono isLonger).trans_lt fewSecond
  rw [shows, shows', shows'', (toNat_counters fewFirst).1,
    (toNat_counters fewSecond).2.2.1, (toNat_counters fewThird).2.2.2]
  have later := arrived_mono isLonger
  have bounded := through_le_arrived third
  rcases isLongest with ⟨rest, rfl⟩
  have between := through_append second rest
  omega

/-- Before `2 ^ 32` packets have arrived a report is not torn. It accounts for
every packet that it reports as received, and for no more than have arrived when
its last counter is read. -/
theorem word_reports (times : WordTimes) (few : arrived times.whole < 2 ^ 32) :
    times.reported =
        .ok (if times.values.pktForwd = 0 ∧ times.values.pktDrop = 0 then none
          else some times.values) ∧
      times.values.pktIn.toNat ≤
        times.values.pktForwd.toNat + times.values.pktDrop.toNat ∧
      times.values.pktForwd.toNat + times.values.pktDrop.toNat ≤
        arrived times.readPktDrop := by
  have arrivals : arrived times.readPktDrop < 2 ^ 64 :=
    ((arrived_mono times.readPktDrop_whole).trans_lt few).trans (by decide)
  have untilForwd : times.readPktIn <+: times.readPktForwd :=
    (List.prefix_append _ _).trans (times.readPhitIn_prefix.trans
      ((List.prefix_append _ _).trans times.readPktForwd_prefix))
  have untilDrop : times.readPktForwd <+: times.readPktDrop :=
    (List.prefix_append _ _).trans times.readPktDrop_prefix
  have balanced := counters_balance untilForwd untilDrop arrivals
  refine ⟨?_, balanced⟩
  have silent : (times.values.pktIn = 0 ∧ times.values.pktForwd = 0 ∧
      times.values.pktDrop = 0) ↔
      times.values.pktForwd = 0 ∧ times.values.pktDrop = 0 := by
    constructor
    · exact And.right
    · rintro ⟨forwd, drop⟩
      refine ⟨BitVec.eq_of_toNat_eq ?_, forwd, drop⟩
      have covered : times.values.pktIn.toNat ≤
        times.values.pktForwd.toNat + times.values.pktDrop.toNat := balanced.1
      rw [forwd, drop] at covered
      exact Nat.le_zero.mp covered
  rw [times.reported_eq few]
  simp only [silent]

def countedMeanwhile : WordTimes where
  pktIn := ⟨[], countedPacket⟩
  phitIn := ⟨[], []⟩
  pktForwd := ⟨[], []⟩
  pktDrop := ⟨[], []⟩

theorem word_reports_sample :
    countedMeanwhile.reported =
        .ok (if countedMeanwhile.values.pktForwd = 0 ∧
            countedMeanwhile.values.pktDrop = 0 then none
          else some countedMeanwhile.values) ∧
      countedMeanwhile.values.pktIn.toNat ≤
        countedMeanwhile.values.pktForwd.toNat +
          countedMeanwhile.values.pktDrop.toNat ∧
      countedMeanwhile.values.pktForwd.toNat +
          countedMeanwhile.values.pktDrop.toNat ≤
        arrived countedMeanwhile.readPktDrop :=
  word_reports countedMeanwhile (by decide)

end PacketFilter.Contracts.WordReports
