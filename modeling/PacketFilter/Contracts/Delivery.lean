import PacketFilter.Contracts.Addressing
import PacketFilter.Contracts.Box
import PacketFilter.Contracts.FilterStrings

/-! # Delivery contracts

Which phits leave the first function, and when, for every order in which the
writes of the server and the invocations of the cores happen from power-up on.
-/

namespace PacketFilter.Contracts.Box

open Hardware Software Interleaving Platform PacketFilter.Box

/-! ## Accepted filters -/

def accepted : List (List Char) → List ValidAddress
  | [] => []
  | filter :: rest =>
      match parsed : parseNetAddr filter with
      | .error _ => []
      | .ok (ip, port) => ⟨filter, ip, port, parsed⟩ :: accepted rest

theorem accepted_cons_error {filter : List Char} {failure : UpdateFailure}
    (parsed : parseNetAddr filter = .error failure) (rest : List (List Char)) :
    accepted (filter :: rest) = [] := by
  rw [accepted]
  split
  · rfl
  · next found =>
      rw [parsed] at found
      cases found

theorem accepted_cons_ok {filter : List Char} {ip : BitVec 32}
    {port : BitVec 16} (parsed : parseNetAddr filter = .ok (ip, port))
    (rest : List (List Char)) :
    accepted (filter :: rest) =
      ⟨filter, ip, port, parsed⟩ :: accepted rest := by
  rw [accepted]
  split
  · next found =>
      rw [parsed] at found
      cases found
  · next found =>
      rw [parsed] at found
      cases found
      rfl

theorem packetFilter_writes (filterList : List (List Char)) :
    (packetFilter filterList).1 = filterWrites (accepted filterList) := by
  rw [filterWrites_eq]
  induction filterList with
  | nil => rfl
  | cons filter rest induction =>
      cases parsed : parseNetAddr filter with
      | error failure =>
          rw [accepted_cons_error parsed]
          simp only [packetFilter, updateRule, parsed]
          rfl
      | ok address =>
          rw [accepted_cons_ok parsed, List.flatMap_cons, ← induction]
          simp only [packetFilter, updateRule, parsed]
          rfl

theorem accepted_append (filters : List ValidAddress)
    (rest : List (List Char)) :
    accepted (filters.map ValidAddress.netAddr ++ rest) =
      filters ++ accepted rest := by
  induction filters with
  | nil => rfl
  | cons filter others induction =>
      rw [List.map_cons, List.cons_append, accepted_cons_ok filter.accepted,
        induction]
      rfl

theorem accepted_of_stops {rest : List (List Char)}
    {ended : Except UpdateFailure Unit} (stops : Stops rest ended) :
    accepted rest = [] := by
  cases stops with
  | complete => rfl
  | rejected rejected => exact accepted_cons_error rejected.parseNetAddr_eq _

/-- The filters behind the accepted ones are why the constructor ends. -/
theorem accepted_split (filterList : List (List Char)) :
    ∃ rest, filterList =
        (accepted filterList).map ValidAddress.netAddr ++ rest ∧
      Stops rest ((packetFilter filterList).2.elim (.ok ()) .error) := by
  rcases packetFilter_split filterList with
    ⟨filters, rest, isList, -, stops⟩
  have isAccepted : accepted filterList = filters := by
    rw [isList, accepted_append, accepted_of_stops stops, List.append_nil]
  exact ⟨rest, by rw [isAccepted]; exact isList, stops⟩

/-- All filters that the runs get to write when none of them is ended early. -/
def Operation.accepted (operation : Operation) : List ValidAddress :=
  operation.runs.flatMap fun run => Box.accepted run.filterList

def firstRun (trace : Box.Trace) : List Invocation :=
  invocations powerUp.registers (view 0 trace)

structure DefinedOperation extends Operation where
  inRange : ∀ packet ∈ packets (firstRun trace), packet.length ≤ 2 ^ 31

structure OrderlyOperation extends DefinedOperation where
  through : ∀ run ∈ runs.dropLast,
    run.written = (packetFilter run.filterList).1

theorem OrderlyOperation.writes_within (operation : OrderlyOperation) :
    writes operation.trace <+: filterWrites operation.accepted := by
  have through := operation.through
  rw [operation.performs, Operation.accepted, filterWrites_eq, List.flatMap_assoc]
  simp only [← filterWrites_eq, ← packetFilter_writes]
  rcases List.eq_nil_or_concat operation.runs with none | ⟨front, last, isRuns⟩
  · rw [none]
    exact List.prefix_rfl
  · rw [isRuns, List.concat_eq_append] at through ⊢
    rw [List.dropLast_concat] at through
    rw [List.flatMap_append, List.flatMap_append, List.flatMap_singleton,
      List.flatMap_singleton, List.flatMap_congr through]
    exact (List.prefix_append_right_inj _).mpr last.within

/-! ## What the registers hold -/

theorem mem_forwardedAddresses {begun : List ValidAddress}
    {made : List RegisterWrite} (covered : made <+: filterWrites begun)
    {config : Config}
    (held : config ∈ powerUp.registers ::
      snapshots Config.writeRegister powerUp.registers made)
    (forwards : config.action = 1) :
    (config.ipv4Addr, config.udpPort) ∈ forwardedAddresses begun := by
  have all : config ∈ powerUp.registers ::
      snapshots Config.writeRegister powerUp.registers (filterWrites begun) := by
    rcases covered with ⟨left, isAll⟩
    rw [← isAll, snapshots_append, ← List.cons_append]
    exact List.mem_append_left _ held
  have dropsFirst : powerUp.registers.action ≠ 1 := by decide
  cases begun with
  | nil =>
      rw [filterWrites_eq] at all
      rcases List.mem_singleton.mp all with rfl
      exact absurd forwards dropsFirst
  | cons filter rest =>
      rw [snapshots_filterWrites_cons, List.mem_cons, List.mem_cons,
        List.mem_cons] at all
      rcases all with rfl | rfl | rfl | later
      · exact absurd forwards dropsFirst
      · exact absurd forwards dropsFirst
      · exact absurd forwards dropsFirst
      · rcases (mem_snapshots_iff filter rest config).mp later
          with ⟨address, member, rfl⟩
        exact member

theorem slotForwards_iff_mem_policy (trace : Platform.Trace) (address : Address) :
    slotForwards (invocations powerUp.registers trace) (addressSlot address) =
        true ↔
      address ∈ policy (platform.run powerUp trace) := by
  have shut : (0 : BitVec 32) ≠ 1 := by decide
  have table := table_run powerUp trace (addressSlot address)
  rw [slotForwards, idleConfigs_invocations]
  refine Iff.trans ?_ (iff_of_eq (congrArg (· = 1) table)).symm
  cases DirectMapped.latest
      (fun config => decide (config.slot = addressSlot address))
      (insertions powerUp.registers trace) with
  | none => exact iff_of_false Bool.false_ne_true shut
  | some config =>
      exact beq_iff_eq.trans (setWidth_action_eq_one_iff config.action).symm

theorem exists_held_of_mem_policy {trace : Platform.Trace} {address : Address}
    (opened : address ∈ policy (platform.run powerUp trace)) :
    ∃ config ∈ powerUp.registers ::
        snapshots Config.writeRegister powerUp.registers (writes trace),
      config.action = 1 ∧
        addressSlot (config.ipv4Addr, config.udpPort) = addressSlot address := by
  rw [← slotForwards_iff_mem_policy, slotForwards, idleConfigs_invocations,
    Option.any_eq_true] at opened
  rcases opened with ⟨config, isLatest, forwards⟩
  rcases DirectMapped.mem_of_latest isLatest with ⟨inserted, sameSlot⟩
  exact ⟨config, mem_readings inserted, beq_iff_eq.mp forwards,
    of_decide_eq_true sameSlot⟩

theorem touched_of_mem_policy {begun : List ValidAddress}
    {trace : Platform.Trace} (covered : writes trace <+: filterWrites begun)
    {address : Address} (opened : address ∈ policy (platform.run powerUp trace)) :
    Touched begun address := by
  rcases exists_held_of_mem_policy opened with ⟨config, held, forwards, sameSlot⟩
  rw [Touched, ← sameSlot]
  exact List.mem_map_of_mem (mem_forwardedAddresses covered held forwards)

/-- FORWARD is held for an IP address and a port of these filters only. -/
def Covered (filters : List ValidAddress) (config : Config) : Prop :=
  config.action = 1 → ∃ first ∈ filters, ∃ second ∈ filters,
    config.ipv4Addr = first.ip ∧ config.udpPort = second.port

theorem covered_snapshots {filters own : List ValidAddress}
    (within : own ⊆ filters) {registers : Config}
    (covered : Covered filters registers) :
    ∀ config ∈ snapshots Config.writeRegister registers (filterWrites own),
      Covered filters config := by
  induction own generalizing registers with
  | nil =>
      rw [filterWrites_eq]
      exact fun _ member => absurd member List.not_mem_nil
  | cons filter rest induction =>
      have isOwn : filter ∈ filters := within List.mem_cons_self
      have whole : ∀ action,
          Covered filters ⟨filter.ip, filter.port, action⟩ :=
        fun _ _ => ⟨filter, isOwn, filter, isOwn, rfl, rfl⟩
      intro config member
      rw [snapshots_filterWrites_cons, List.mem_cons, List.mem_cons,
        List.mem_cons] at member
      rcases member with rfl | rfl | rfl | later
      · intro forwards
        rcases covered forwards with ⟨-, -, second, isFilter, -, samePort⟩
        exact ⟨filter, isOwn, second, isFilter, rfl, samePort⟩
      · exact whole _
      · exact whole _
      · exact induction (List.subset_of_cons_subset within) (whole 1) config later

/-- Wherever the runs are ended, a slot that forwards is that of the IP address
of a filter with the port of the same or of another one. -/
theorem Operation.exists_filters (operation : Operation) {trace : Platform.Trace}
    (within : writes trace <+: writes operation.trace) {address : Address}
    (opened : address ∈ policy (platform.run powerUp trace)) :
    ∃ first ∈ operation.accepted, ∃ second ∈ operation.accepted,
      addressSlot address = addressSlot (first.ip, second.port) := by
  have start : Covered operation.accepted powerUp.registers :=
    fun forwards => absurd forwards (by decide)
  have all : ∀ config ∈ powerUp.registers :: snapshots Config.writeRegister
      powerUp.registers (operation.runs.flatMap ServerRun.written),
        Covered operation.accepted config := by
    refine forall_mem_snapshots_flatMap _ ?_ start
    intro run member registers covered config reached
    have own : Box.accepted run.filterList ⊆ operation.accepted :=
      fun filter isAccepted => List.mem_flatMap.mpr ⟨run, member, isAccepted⟩
    have written := run.within
    rw [packetFilter_writes] at written
    rcases written with ⟨left, isWhole⟩
    apply covered_snapshots own covered
    rw [← isWhole, snapshots_append]
    exact List.mem_append_left _ reached
  rcases exists_held_of_mem_policy opened with ⟨config, held, forwards, sameSlot⟩
  rcases within with ⟨left, isAll⟩
  rw [← operation.performs, ← isAll, snapshots_append, ← List.cons_append] at all
  rcases all config (List.mem_append_left _ held) forwards
    with ⟨first, isFirst, second, isSecond, sameIp, samePort⟩
  exact ⟨first, isFirst, second, isSecond, by rw [← sameSlot, sameIp, samePort]⟩

/-! ## Packets of the first function -/

def packetStart (before : Box.Trace) (phit : Axis250) : Axis250 :=
  (Framing.openFrame Axis250.last (phitsOf 0 before)).headD phit

theorem consumedPhits_invocations (registers : Config) (trace : Box.Trace) :
    consumedPhits (invocations registers (view 0 trace)) = phitsOf 0 trace := by
  induction trace generalizing registers with
  | nil => rfl
  | cons event rest induction =>
      cases event with
      | write written => exact induction (registers.writeRegister written)
      | act action =>
          rcases action with ⟨i, sAxis⟩
          by_cases own : i = 0
          · subst own
            cases sAxis with
            | none => exact induction registers
            | some phit => exact congrArg (phit :: ·) (induction registers)
          · have unseen : view 0 (.act (i, sAxis) :: rest) = view 0 rest := by
              simp [view, own]
            have unmet : phitsOf 0 (.act (i, sAxis) :: rest) =
                phitsOf 0 rest := by
              simp [phitsOf, acts, own]
            rw [unseen, unmet]
            exact induction registers

theorem items_eq_consumedPhits (history : List Invocation) :
    slotFilter.items history = consumedPhits history := by
  apply List.filterMap_congr
  rintro ⟨config, _ | phit⟩ _ <;> rfl

theorem answer_eq (run : DefinedRun) {before later : List Invocation}
    {config : Config} {phit : Axis250}
    (split : run.invocations = before ++ ⟨config, some phit⟩ :: later) :
    (hardware.step (after before) ⟨config, some phit⟩).2 =
      if keepsPhit ((Framing.openFrame Axis250.last
        (consumedPhits before)).headD phit) before then [phit] else [] := by
  rcases slotFilter.exists_frame_of_input split rfl with ⟨packet, member, leads⟩
  have inPacket := leads.subset (List.mem_append_right _ List.mem_cons_self)
  have isFirst := Framing.head?_of_prefix leads
  have output := implementation.output_of_mem_frames run.inRange packet member
    _ isFirst _ inPacket
  have start := slotFilter.openFrame_headD before
    ⟨before, ⟨config, some phit⟩, phit⟩
  rw [items_eq_consumedPhits] at start
  rw [keeps_eq_keepsPhit, ← start] at output
  exact output

theorem platform_answer {before after : Platform.Trace} {phit : Axis250}
    (inRange : ∀ packet ∈ packets (invocations powerUp.registers
      (before ++ .act (some phit) :: after)), packet.length ≤ 2 ^ 31) :
    (platform.step (platform.run powerUp before) (.act (some phit))).2 =
      if keepsPhit ((Framing.openFrame Axis250.last
          (consumedPhits (invocations powerUp.registers before))).headD phit)
        (invocations powerUp.registers before) then [phit] else [] := by
  let registers := (writes before).foldl Config.writeRegister powerUp.registers
  have invoked : invocations powerUp.registers
      (before ++ .act (some phit) :: after) =
        invocations powerUp.registers before ++
          ⟨registers, some phit⟩ :: invocations registers after := by
    rw [invocations, observed_split, List.map_append]
    rfl
  change (hardware.step (platform.run powerUp before).device
    ⟨(platform.run powerUp before).registers, some phit⟩).2 = _
  rw [run_eq]
  exact answer_eq ⟨_, inRange⟩ invoked

/-! ## Answers of the first function -/

section Box

variable (shell : Shell) (build : AddressMap.Build)

def answer (before : Box.Trace) (phit : Axis250) : Option (Nat × List Axis250) :=
  ((box shell build).step ((box shell build).run (fun _ => powerUp) before)
    (.act (0, some phit))).2

variable (operation : DefinedOperation)

theorem driverWrites_before {before after : Box.Trace}
    (split : operation.trace = before ++ after) :
    DriverWrites (writes before) :=
  fun write member =>
    operation.driverWrites write ((writes_before split).subset member)

theorem answer_first {before after : Box.Trace} {phit : Axis250}
    (split : operation.trace = before ++ .act (0, some phit) :: after) :
    answer shell build before phit =
      some (0, if keepsPhit (packetStart before phit) (firstRun before) then
        [phit] else []) := by
  have routed : route shell build (.act (0, some phit)) =
      some (0, .act (some phit)) := rfl
  have reached := run_first shell build (fun _ => powerUp)
    (driverWrites_before operation split)
  have seen : view 0 operation.trace =
      view 0 before ++ .act (some phit) :: view 0 after := by
    rw [split, view, List.filterMap_append]
    rfl
  have inRange := operation.inRange
  rw [firstRun, seen] at inRange
  have answered := platform_answer inRange
  rw [consumedPhits_invocations] at answered
  rw [answer, box, Mealy.bank_step_some _ _ routed, ← box, reached, filterCore_eq]
  exact congrArg (fun phits => some (0, phits)) answered

/-- A phit that leaves is judged by an address that the first core forwards. -/
theorem exists_opened {before after : Box.Trace} {phit : Axis250}
    (split : operation.trace = before ++ .act (0, some phit) :: after)
    (leaves : answer shell build before phit = some (0, [phit])) :
    ∃ address, firstPhitKey (packetStart before phit) = some address ∧
      address ∈ policy (platform.run powerUp (view 0 before)) := by
  have kept : keepsPhit (packetStart before phit) (firstRun before) = true := by
    rw [answer_first shell build operation split] at leaves
    by_contra shut
    rw [if_neg shut] at leaves
    cases leaves
  cases addressed : firstPhitKey (packetStart before phit) with
  | none =>
      rw [keepsPhit_of_no_key addressed] at kept
      cases kept
  | some address =>
      rw [keepsPhit_of_key addressed] at kept
      exact ⟨address, rfl, (slotForwards_iff_mem_policy _ address).mp kept⟩

theorem exists_filters_of_leaves {before after : Box.Trace} {phit : Axis250}
    (split : operation.trace = before ++ .act (0, some phit) :: after)
    (leaves : answer shell build before phit = some (0, [phit])) :
    ∃ address, firstPhitKey (packetStart before phit) = some address ∧
      ∃ first ∈ operation.accepted, ∃ second ∈ operation.accepted,
        addressSlot address = addressSlot (first.ip, second.port) := by
  rcases exists_opened shell build operation split leaves
    with ⟨address, addressed, opened⟩
  refine ⟨address, addressed, operation.exists_filters ?_ opened⟩
  rw [writes_view]
  exact writes_before split

theorem writes_nonempty (filter : ValidAddress) : filter.writes .forward ≠ [] := by
  rw [ValidAddress.writes, ruleWrites_eq]
  exact List.cons_ne_nil _ _

/-- When a phit leaves the first function, its packet shares a slot with an
address of the filters begun by then, all of which but the last have been
written whole, and the handler does not skip the frame. -/
theorem only_begun_leave (operation : OrderlyOperation) {before after : Box.Trace}
    {phit : Axis250}
    (split : operation.trace = before ++ .act (0, some phit) :: after)
    (leaves : answer shell build before phit = some (0, [phit])) :
    ∃ begun address, begun <+: operation.accepted ∧
      filterWrites begun.dropLast <+: writes before ∧
      (begun ≠ [] → filterWrites begun.dropLast ≠ writes before) ∧
      firstPhitKey (packetStart before phit) = some address ∧
      Touched begun address ∧
      ∀ (frame : Frame) (first : FirstPhit frame),
        first.phit = packetStart before phit →
        address = (frame.destIp, frame.portAt 36) ∧
          ∀ (received : ReceivedFrame frame) (threadId : BitVec 16),
            ¬ (handled threadId received.mbuf).Skipped := by
  have within := (writes_before split).trans operation.writes_within
  rw [filterWrites_eq] at within
  rcases exists_begun _ writes_nonempty within
    with ⟨begun, isBegun, whole, begins, covered⟩
  rw [← filterWrites_eq] at whole begins covered
  rw [← writes_view 0] at covered
  rcases exists_opened shell build operation.toDefinedOperation split leaves
    with ⟨address, addressed, opened⟩
  refine ⟨begun, address, isBegun, whole, begins, addressed,
    touched_of_mem_policy covered opened, ?_⟩
  intro frame first isFirst
  rw [← isFirst, first.firstPhitKey_eq] at addressed
  split at addressed
  · next isUdp =>
      refine ⟨(Option.some.inj addressed).symm, fun received threadId => ?_⟩
      rw [received.skipped_iff, not_not]
      exact isUdp
  · cases addressed

/-- A packet for 192.168.2.1:8500 arrives when that address has been
installed. -/
def sampleDelivery : OrderlyOperation where
  runs := sampleOperation.runs
  trace := sampleOperation.trace ++ [.act (0, some plainPhit.phit)]
  performs := by
    rw [writes_append, sampleOperation.performs]
    exact List.append_nil _
  inRange := by decide +kernel
  through _ member := absurd member List.not_mem_nil

theorem only_begun_leave_sample :
    ∃ begun address, begun <+: sampleDelivery.accepted ∧
      filterWrites begun.dropLast <+: writes sampleOperation.trace ∧
      (begun ≠ [] →
        filterWrites begun.dropLast ≠ writes sampleOperation.trace) ∧
      firstPhitKey (packetStart sampleOperation.trace plainPhit.phit) =
        some address ∧
      Touched begun address ∧
      ∀ (frame : Frame) (first : FirstPhit frame),
        first.phit = packetStart sampleOperation.trace plainPhit.phit →
        address = (frame.destIp, frame.portAt 36) ∧
          ∀ (received : ReceivedFrame frame) (threadId : BitVec 16),
            ¬ (handled threadId received.mbuf).Skipped :=
  only_begun_leave openNic twoFunctions sampleDelivery rfl (by decide +kernel)

/-! ## Filters that have been inserted -/

/-- When an idle invocation happens between a filter and the next one, all later
phits of packets for its slot leave, whatever is written meanwhile. -/
theorem inserted_leave (operation : OrderlyOperation)
    {earlier later : List ValidAddress} {filter : ValidAddress}
    (isAccepted : operation.accepted = earlier ++ filter :: later)
    {before between after : Box.Trace} {phit : Axis250}
    (split : operation.trace = before ++ .act (0, none) :: between ++
      .act (0, some phit) :: after)
    (whole : writes before = filterWrites (earlier ++ [filter]))
    {address : Address}
    (addressed : firstPhitKey (packetStart (before ++ .act (0, none) :: between)
      phit) = some address)
    (sameSlot : addressSlot address = addressSlot (filter.ip, filter.port)) :
    answer shell build (before ++ .act (0, none) :: between) phit =
      some (0, [phit]) := by
  have remaining : writes (view 0 between) <+: filterWrites later := by
    have performed := operation.writes_within
    rw [split, isAccepted, List.append_cons earlier, filterWrites_append,
      writes_append, writes_append, writes_act, whole, List.append_assoc,
      List.prefix_append_right_inj] at performed
    rw [writes_view]
    exact (List.prefix_append _ _).trans performed
  have seen : view 0 (before ++ .act (0, none) :: between) =
      view 0 before ++ .act none :: view 0 between := by
    rw [view, List.filterMap_append]
    rfl
  have inserted := lookup_after_insertion powerUp earlier filter later
    (view 0 before) (view 0 between) (by rw [writes_view, whole]) remaining
  have opened : slotForwards (firstRun (before ++ .act (0, none) :: between))
      (addressSlot address) = true := by
    rw [sameSlot, firstRun, seen]
    exact (slotForwards_iff_mem_policy _ (filter.ip, filter.port)).mpr inserted
  rw [answer_first shell build operation.toDefinedOperation split,
    keepsPhit_of_key addressed]
  exact congrArg (fun phits => some (0, phits)) (if_pos opened)

theorem inserted_leave_sample :
    answer openNic twoFunctions (sampleOperation.trace.take 5 ++
        .act (0, none) :: sampleOperation.trace.drop 6) plainPhit.phit =
      some (0, [plainPhit.phit]) :=
  have isAccepted : sampleDelivery.accepted =
      [] ++ firstAddress :: [secondAddress] :=
    (List.flatMap_singleton _ _).trans (accepted_append sampleFilters [])
  have split : sampleDelivery.trace = sampleOperation.trace.take 5 ++
      .act (0, none) :: sampleOperation.trace.drop 6 ++
        .act (0, some plainPhit.phit) :: [] := rfl
  have addressed : firstPhitKey (packetStart (sampleOperation.trace.take 5 ++
      .act (0, none) :: sampleOperation.trace.drop 6) plainPhit.phit) =
      some (0x0102A8C0, 0x3421) := by decide +kernel
  inserted_leave openNic twoFunctions sampleDelivery isAccepted split
    (by decide +kernel) addressed rfl

end Box

end PacketFilter.Contracts.Box
