import Mathlib.Data.Set.Basic
import PacketFilter.Contracts.RuleUpdates

/-! # Installation contracts

What the table answers once the constructor has written a list of filters, from
whatever state the hardware was in.
-/

namespace PacketFilter.Contracts

open Hardware Software Interleaving Platform

def idleAfterEach (performed : List RegisterWrite) : Schedule performed where
  trace := performed.flatMap fun written => [.write written, .act none]
  performs := by
    induction performed with
    | nil => rfl
    | cons written rest induction => exact congrArg (written :: ·) induction

theorem paced_idleAfterEach (performed : List RegisterWrite) :
    Paced Option.isNone (idleAfterEach performed).trace := by
  induction performed with
  | nil => exact .nil
  | cons written rest induction => exact .cons written [none] _ rfl induction

theorem idleAt_idleAfterEach (made : List RegisterWrite)
    (latest : RegisterWrite) (left : List RegisterWrite) :
    IdleAt (idleAfterEach (made ++ latest :: left)).trace
      (made ++ [latest]) := by
  refine ⟨⟨(idleAfterEach made).trace ++ [.write latest],
    (idleAfterEach left).trace, ?_⟩, ?_⟩
  · simp [idleAfterEach]
  · rw [writes_append, (idleAfterEach made).performs]
    rfl

/-! ## Filters that stay installed -/

theorem action_writeRegister (filters : List ValidAddress) :
    ∀ written ∈ filterWrites filters, ∀ registers : Config,
      registers.action = 1 → (registers.writeRegister written).action = 1 := by
  intro written member registers forwards
  rw [filterWrites_eq] at member
  rcases List.mem_flatMap.mp member with ⟨filter, -, isWrite⟩
  have action : actionRegister .forward = 1 := by decide
  rw [ValidAddress.writes, ruleWrites_eq] at isWrite
  simp only [List.mem_cons, List.not_mem_nil, or_false] at isWrite
  rcases isWrite with rfl | rfl | rfl
  · rw [writeRegister_ipv4Addr]
    exact forwards
  · rw [writeRegister_udpPort]
    exact forwards
  · rw [writeRegister_action]
    exact action

/-- A filter that has been inserted whole stays installed while the constructor
writes the filters behind it. -/
theorem lookup_after_insertion (start : Platform)
    (earlier : List ValidAddress) (filter : ValidAddress)
    (later : List ValidAddress) (before after : Trace)
    (whole : writes before = filterWrites (earlier ++ [filter]))
    (remaining : writes after <+: filterWrites later) :
    (platform.run start
        (before ++ .act none :: after)).device.statics.hashTable.lookup
      filter.ip filter.port = 1 := by
  have forwarding : ∀ found ∈ forwardRule filter ::
      insertions (forwardRule filter) after, found.action = 1 := by
    intro found member
    rcases List.mem_cons.mp member with rfl | behind
    · rfl
    · apply forall_mem_readings (fun config => config.action = 1) rfl _ found
        behind
      exact fun written isWrite =>
        action_writeRegister later written (remaining.subset isWrite)
  have fits : decide ((forwardRule filter).slot =
      slotIndex filter.ip filter.port) = true := decide_eq_true rfl
  rcases DirectMapped.latest_of_forall
    (fun config => decide (config.slot = slotIndex filter.ip filter.port))
    (fun config => config.action = 1) (insertions start.registers before)
    fits forwarding with ⟨found, isLatest, forwards⟩
  rw [ToeplitzHash.lookup, table_run, insertions_split, whole,
    foldl_filterWrites, isLatest, Option.map_some, Option.getD_some, forwards]
  rfl

/-- An idle invocation behind the third write of a filter lies behind one that
inserted it whole, or is such a one itself. -/
theorem exists_whole_insertion {trace : Trace} {made : List RegisterWrite}
    (served : IdleAt trace made) (insertion : Insertion trace)
    (written : made <+: writes insertion.before) {further : Trace}
    (within : further <+: insertion.after) :
    ∃ before after,
      insertion.before ++ .act none :: further = before ++ .act none :: after ∧
        writes before = made := by
  rcases served with ⟨window, isMade⟩
  have early := window.reached List.nil_prefix
  have reached := insertion.reached within
  rcases Nat.lt_or_ge insertion.before.length window.before.length
    with before | behind
  · -- No write lies between the insertion and the one that is known.
    have leads : insertion.before <+: window.before :=
      List.prefix_of_prefix_length_le
        ((List.prefix_append _ _).trans reached)
        ((List.prefix_append _ _).trans early) before.le
    have fewer : writes insertion.before <+: made :=
      isMade ▸ leads.filterMap _
    exact ⟨insertion.before, further, rfl,
      fewer.eq_of_length_le written.length_le⟩
  · have shorter : window.before.length + 1 ≤
        insertion.before.length + (further.length + 1) := by omega
    rcases List.prefix_of_prefix_length_le early reached
      (by simpa using shorter)
      with ⟨after, isReached⟩
    refine ⟨window.before, after, ?_, isMade⟩
    rw [← isReached, List.append_assoc]
    rfl

/-- With an idle invocation behind every filter, a filter is answered with
FORWARD from the first idle invocation after its third write on. -/
theorem installed_filter_forwards (start : Platform)
    (filters : List ValidAddress) (schedule : Schedule (filterWrites filters))
    (served : ∀ earlier filter later, filters = earlier ++ filter :: later →
      IdleAt schedule.trace (filterWrites (earlier ++ [filter]))) :
    ∀ earlier filter later, filters = earlier ++ filter :: later →
      ∀ insertion : Insertion schedule.trace,
        filterWrites (earlier ++ [filter]) <+: writes insertion.before →
        ∀ further, further <+: insertion.after →
          (platform.run start (insertion.before ++
            .act none :: further)).device.statics.hashTable.lookup
            filter.ip filter.port = 1 := by
  intro earlier filter later isFilters insertion written further within
  rcases exists_whole_insertion (served earlier filter later isFilters)
    insertion written within with ⟨before, after, isReached, whole⟩
  rw [isReached]
  apply lookup_after_insertion start earlier filter later before after whole
  have reached : before ++ .act none :: after <+: schedule.trace :=
    isReached ▸ insertion.reached within
  have isWhole : filterWrites filters =
      filterWrites (earlier ++ [filter]) ++ filterWrites later := by
    rw [isFilters, List.append_cons, filterWrites_append]
  have performed : writes (before ++ .act none :: after) <+:
      writes schedule.trace := reached.filterMap _
  rw [writes_append, writes_act, whole, schedule.performs, isWhole,
    List.prefix_append_right_inj] at performed
  exact performed

theorem served_idleAfterEach (filters : List ValidAddress) :
    ∀ earlier filter later, filters = earlier ++ filter :: later →
      IdleAt (idleAfterEach (filterWrites filters)).trace
        (filterWrites (earlier ++ [filter])) := by
  rintro earlier filter later rfl
  have written : filterWrites [filter] ≠ [] := by
    rw [filterWrites_eq, List.flatMap_singleton, ValidAddress.writes,
      ruleWrites_eq]
    exact List.cons_ne_nil _ _
  have nonempty : filterWrites (earlier ++ [filter]) ≠ [] := by
    rw [filterWrites_append]
    exact List.append_ne_nil_of_right_ne_nil _ written
  rw [List.append_cons, filterWrites_append (earlier ++ [filter])]
  rcases List.eq_nil_or_concat (filterWrites (earlier ++ [filter]))
    with empty | ⟨made, latest, isMade⟩
  · exact absurd empty nonempty
  · rw [isMade, List.concat_eq_append, List.append_assoc]
    exact idleAt_idleAfterEach made latest _

def sampleFilters : List ValidAddress := [firstAddress, secondAddress]

theorem installed_filter_forwards_sample :
    (platform.run powerUp (idleAfterEach (filterWrites
      sampleFilters)).trace).device.statics.hashTable.lookup
        0x0102A8C0 0x3421 = 1 :=
  installed_filter_forwards powerUp sampleFilters (idleAfterEach _)
    (served_idleAfterEach sampleFilters) [] firstAddress [secondAddress] rfl
    ⟨(idleAfterEach (filterWrites sampleFilters)).trace.take 5,
      (idleAfterEach (filterWrites sampleFilters)).trace.drop 6, rfl⟩
    (by decide +kernel) _ (List.prefix_refl _)

/-! ## The installed policy -/

abbrev Address := BitVec 32 × BitVec 16

def addressSlot (address : Address) : Fin hashTableSize :=
  slotIndex address.1 address.2

def policy (state : Platform) : Set Address :=
  {address |
    state.device.statics.hashTable.lookup address.1 address.2 = 1}

/-- The addresses inserted with FORWARD for a list of filters: the filters and,
between two of them, the address of the next with the port of the last. -/
def forwardedAddresses : List ValidAddress → List Address
  | [] => []
  | [filter] => [(filter.ip, filter.port)]
  | filter :: next :: rest =>
      (filter.ip, filter.port) :: (next.ip, filter.port) ::
        forwardedAddresses (next :: rest)

/-- The address shares a slot with one that the list forwards. -/
def Touched (filters : List ValidAddress) (address : Address) : Prop :=
  addressSlot address ∈ (forwardedAddresses filters).map addressSlot

/-- What an address in no such slot is left with: its verdict so far, or the
action register if it shares a slot with the first filter's address and the
port register. -/
def Residual (filters : List ValidAddress) (start : Platform)
    (address : Address) : Prop :=
  match filters with
  | [] => address ∈ policy start
  | first :: _ =>
      if addressSlot address =
          addressSlot (first.ip, start.registers.udpPort) then
        start.registers.action = 1
      else address ∈ policy start

theorem snapshots_filterWrites_cons (registers : Config)
    (filter : ValidAddress) (rest : List ValidAddress) :
    snapshots Config.writeRegister registers (filterWrites (filter :: rest)) =
      ⟨filter.ip, registers.udpPort, registers.action⟩ ::
        ⟨filter.ip, filter.port, registers.action⟩ :: forwardRule filter ::
          snapshots Config.writeRegister (forwardRule filter)
            (filterWrites rest) := by
  have split : filterWrites (filter :: rest) =
      filter.writes .forward ++ filterWrites rest := by
    rw [filterWrites_eq, filterWrites_eq, List.flatMap_cons]
  rw [split, snapshots_append, snapshots_writes, foldl_writes, rule_forward]
  rfl

theorem mem_snapshots_iff (filter : ValidAddress) (rest : List ValidAddress)
    (config : Config) :
    config ∈ forwardRule filter :: snapshots Config.writeRegister
        (forwardRule filter) (filterWrites rest) ↔
      ∃ address ∈ forwardedAddresses (filter :: rest),
        config = ⟨address.1, address.2, 1⟩ := by
  induction rest generalizing filter with
  | nil =>
      simp only [forwardedAddresses, List.mem_singleton, exists_eq_left]
      exact List.mem_singleton
  | cons next rest induction =>
      have atNext := induction next
      have isRule : (⟨next.ip, next.port, 1⟩ : Config) = forwardRule next := rfl
      rw [snapshots_filterWrites_cons, List.mem_cons, List.mem_cons]
      simp only [forwardRule] at isRule atNext ⊢
      rw [List.mem_cons, atNext]
      simp only [forwardedAddresses, List.mem_cons, exists_eq_or_imp]
      constructor
      · rintro (isFilter | isMixed | isNext | isLater)
        · exact .inl isFilter
        · exact .inr (.inl isMixed)
        · exact .inr (.inr (atNext.mp (isNext ▸ List.mem_cons_self)))
        · exact .inr (.inr isLater)
      · rintro (isFilter | isMixed | isLater)
        · exact .inl isFilter
        · exact .inr (.inl isMixed)
        · exact .inr (.inr (.inr isLater))

theorem touched_iff (filter : ValidAddress) (rest : List ValidAddress)
    (address : Address) :
    Touched (filter :: rest) address ↔
      ∃ config ∈ forwardRule filter :: snapshots Config.writeRegister
        (forwardRule filter) (filterWrites rest),
        config.slot = addressSlot address := by
  rw [Touched, List.mem_map]
  constructor
  · rintro ⟨forwarded, member, sameSlot⟩
    exact ⟨⟨forwarded.1, forwarded.2, 1⟩,
      (mem_snapshots_iff filter rest _).mpr ⟨forwarded, member, rfl⟩, sameSlot⟩
  · rintro ⟨config, member, sameSlot⟩
    rcases (mem_snapshots_iff filter rest config).mp member
      with ⟨forwarded, isForwarded, rfl⟩
    exact ⟨forwarded, isForwarded, sameSlot⟩

theorem lookup_after_setup (start : Platform) {filters : List ValidAddress}
    (schedule : Schedule (filterWrites filters))
    (paced : Paced Option.isNone schedule.trace) (address : Address) :
    (platform.run start schedule.trace).device.statics.hashTable.lookup
        address.1 address.2 =
      ((DirectMapped.latest
          (fun config => decide (config.slot = addressSlot address))
          (snapshots Config.writeRegister start.registers
            (filterWrites filters))).map
        fun config => config.action.setWidth 32).getD
        (start.device.statics.hashTable.lookup address.1 address.2) := by
  have followed := paced.latest_readings Config.writeRegister start.registers
    (fun config => decide (config.slot = addressSlot address))
  rw [schedule.performs] at followed
  rw [ToeplitzHash.lookup, table_run, insertions]
  exact congrArg (fun found => (Option.map
    (fun config : Config => config.action.setWidth 32) found).getD _) followed

theorem setWidth_action_eq_one_iff (action : BitVec 8) :
    action.setWidth 32 = 1 ↔ action = 1 := by
  rw [← beq_iff_eq, setWidth_action_eq_one, beq_iff_eq]

section Latest

variable (registers : Config) (filter : ValidAddress)
  (rest : List ValidAddress) (address : Address)

theorem latest_of_touched (touched : Touched (filter :: rest) address) :
    ∃ found, DirectMapped.latest
        (fun config => decide (config.slot = addressSlot address))
        (snapshots Config.writeRegister registers
          (filterWrites (filter :: rest))) = some found ∧ found.action = 1 := by
  have forwarded := mem_snapshots_iff filter rest
  rcases (touched_iff filter rest address).mp touched with
    ⟨config, member, sameSlot⟩
  rw [snapshots_filterWrites_cons]
  generalize snapshots Config.writeRegister (forwardRule filter)
    (filterWrites rest) = behind at forwarded member ⊢
  rcases List.append_of_mem member with ⟨front, back, split⟩
  rw [split]
  apply DirectMapped.latest_of_forall _ (fun config => config.action = 1)
    (⟨filter.ip, registers.udpPort, registers.action⟩ ::
      ⟨filter.ip, filter.port, registers.action⟩ :: front)
    (decide_eq_true sameSlot)
  intro found isLater
  have isFound : found ∈ forwardRule filter :: behind :=
    split ▸ List.mem_append_right front isLater
  rcases (forwarded found).mp isFound with ⟨_, _, rfl⟩
  rfl

/-- Only the first write of the first filter can insert into a slot that the
filters do not touch. -/
theorem latest_of_untouched (untouched : ¬ Touched (filter :: rest) address) :
    DirectMapped.latest
        (fun config => decide (config.slot = addressSlot address))
        (snapshots Config.writeRegister registers
          (filterWrites (filter :: rest))) =
      if addressSlot address = addressSlot (filter.ip, registers.udpPort) then
        some ⟨filter.ip, registers.udpPort, registers.action⟩
      else none := by
  have touched := touched_iff filter rest address
  rw [snapshots_filterWrites_cons]
  generalize snapshots Config.writeRegister (forwardRule filter)
    (filterWrites rest) = behind at touched ⊢
  have others : ∀ config ∈ forwardRule filter :: behind,
      config.slot ≠ addressSlot address :=
    fun config member sameSlot =>
      untouched (touched.mpr ⟨config, member, sameSlot⟩)
  have noneBehind : DirectMapped.latest
      (fun config => decide (config.slot = addressSlot address))
      (forwardRule filter :: behind) = none :=
    (DirectMapped.latest_eq_none_iff _ _).mpr fun config member =>
      decide_eq_false (others config member)
  have notSecond : Config.slot ⟨filter.ip, filter.port, registers.action⟩ ≠
      addressSlot address := others (forwardRule filter) List.mem_cons_self
  have beforeThird := DirectMapped.latest_append
    (fun config : Config => decide (config.slot = addressSlot address))
    [⟨filter.ip, registers.udpPort, registers.action⟩,
      ⟨filter.ip, filter.port, registers.action⟩]
    (forwardRule filter :: behind)
  have beforeSecond := DirectMapped.latest_concat
    (fun config : Config => decide (config.slot = addressSlot address))
    [⟨filter.ip, registers.udpPort, registers.action⟩]
    ⟨filter.ip, filter.port, registers.action⟩
  have beforeFirst := DirectMapped.latest_concat
    (fun config : Config => decide (config.slot = addressSlot address))
    [] ⟨filter.ip, registers.udpPort, registers.action⟩
  rw [noneBehind, Option.none_or] at beforeThird
  rw [decide_eq_false notSecond, if_neg Bool.false_ne_true] at beforeSecond
  refine beforeThird.trans (beforeSecond.trans (beforeFirst.trans ?_))
  simp only [decide_eq_true_eq, DirectMapped.latest_nil]
  exact if_congr eq_comm rfl rfl

end Latest

theorem mem_policy_iff (start : Platform) {filters : List ValidAddress}
    (schedule : Schedule (filterWrites filters))
    (paced : Paced Option.isNone schedule.trace) (address : Address) :
    address ∈ policy (platform.run start schedule.trace) ↔
      Touched filters address ∨
        ¬ Touched filters address ∧ Residual filters start address := by
  change (platform.run start schedule.trace).device.statics.hashTable.lookup
    address.1 address.2 = 1 ↔ _
  rw [lookup_after_setup start schedule paced address]
  cases filters with
  | nil =>
      have untouched : ¬ Touched [] address := List.not_mem_nil
      simp only [untouched, false_or, not_false_eq_true, true_and]
      rfl
  | cons first rest =>
      by_cases touched : Touched (first :: rest) address
      · rcases latest_of_touched start.registers first rest address touched with
          ⟨found, isLatest, forwards⟩
        rw [isLatest, Option.map_some, Option.getD_some,
          setWidth_action_eq_one_iff]
        exact ⟨fun _ => .inl touched, fun _ => forwards⟩
      · rw [latest_of_untouched start.registers first rest address touched]
        simp only [touched, false_or, not_false_eq_true, true_and, Residual]
        split
        · exact setWidth_action_eq_one_iff _
        · rfl

/-- From any two states at the first write, a list of filters decides the verdicts
in the slots it forwards. The two policies are equal exactly when the states agree on what the
list leaves of them in the other slots. -/
theorem installed_policy (start start' : Platform)
    {filters : List ValidAddress}
    (schedule schedule' : Schedule (filterWrites filters))
    (paced : Paced Option.isNone schedule.trace)
    (paced' : Paced Option.isNone schedule'.trace) :
    (∀ address, Touched filters address →
        address ∈ policy (platform.run start schedule.trace) ∧
          address ∈ policy (platform.run start' schedule'.trace)) ∧
      (∀ address, ¬ Touched filters address →
        (address ∈ policy (platform.run start schedule.trace) ↔
            Residual filters start address) ∧
          (address ∈ policy (platform.run start' schedule'.trace) ↔
            Residual filters start' address)) ∧
      (policy (platform.run start schedule.trace) =
          policy (platform.run start' schedule'.trace) ↔
        ∀ address, ¬ Touched filters address →
          (Residual filters start address ↔
            Residual filters start' address)) := by
  have installed := mem_policy_iff start schedule paced
  have installed' := mem_policy_iff start' schedule' paced'
  have left : ∀ address, ¬ Touched filters address →
      (address ∈ policy (platform.run start schedule.trace) ↔
          Residual filters start address) ∧
        (address ∈ policy (platform.run start' schedule'.trace) ↔
          Residual filters start' address) := by
    intro address untouched
    rw [installed, installed']
    simp only [untouched, false_or, not_false_eq_true, true_and, and_self]
  refine ⟨?_, left, ?_⟩
  · intro address touched
    exact ⟨(installed address).mpr (.inl touched),
      (installed' address).mpr (.inl touched)⟩
  · constructor
    · intro same address untouched
      rw [← (left address untouched).1, ← (left address untouched).2, same]
    · intro agree
      apply Set.ext
      intro address
      by_cases touched : Touched filters address
      · rw [installed, installed']
        simp only [touched, true_or]
      · rw [(left address touched).1, (left address touched).2]
        exact agree address touched

structure EarlierRuns where
  lists : List (List ValidAddress)
  schedule : Schedule (lists.flatMap filterWrites)

def EarlierRuns.state (runs : EarlierRuns) : Platform :=
  platform.run powerUp runs.schedule.trace

instance (state : Platform) (address : Address) :
    Decidable (address ∈ policy state) :=
  inferInstanceAs (Decidable (_ = _))

def noRuns : EarlierRuns := ⟨[], idleAfterEach _⟩

def firstRun : EarlierRuns := ⟨[[firstAddress]], idleAfterEach _⟩

theorem installed_policy_sample :
    (0x0102A8C0, 0x3421) ∈ policy (platform.run firstRun.state
      (idleAfterEach (filterWrites sampleFilters)).trace) :=
  ((installed_policy noRuns.state firstRun.state (idleAfterEach _)
    (idleAfterEach _) (paced_idleAfterEach _) (paced_idleAfterEach _)).1
    (0x0102A8C0, 0x3421) (by rw [Touched]; decide +kernel)).2

/-- An address that only an earlier run had enabled stays forwarded when the
server is run again for another one. -/
theorem not_policy_of_list :
    ¬ ∀ (runs runs' : EarlierRuns) (filters : List ValidAddress)
      (schedule schedule' : Schedule (filterWrites filters)),
      Paced Option.isNone schedule.trace →
      Paced Option.isNone schedule'.trace →
      policy (platform.run runs.state schedule.trace) =
        policy (platform.run runs'.state schedule'.trace) := by
  intro determined
  have same := determined noRuns firstRun [secondAddress] (idleAfterEach _)
    (idleAfterEach _) (paced_idleAfterEach _) (paced_idleAfterEach _)
  have agree := Set.ext_iff.mp same (0x0102A8C0, 0x3421)
  revert agree
  decide +kernel

end PacketFilter.Contracts
