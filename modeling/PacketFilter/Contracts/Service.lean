import PacketFilter.Contracts.Server

/-! # Service contracts

From the command lines of any number of runs to what the first function lets
through.
-/

namespace PacketFilter.Contracts.Server

open CText EffectLog Software Software.Server

structure Launch where
  environment : Environment
  argv : List (List Char)

def Launch.writes (launch : Launch) : List RegisterWrite :=
  (run launch.environment launch.argv).2.filterMap Effect.written

theorem Launch.writes_within (launch : Launch) :
    launch.writes = [] ∨ ∃ args,
      Arguments.parseArgs launch.argv = .ok args ∧
        launch.writes <+: (Software.packetFilter args.filterList).1 := by
  rcases refused_or_admitted launch.environment launch.argv with
    ⟨failure, performed, refused⟩ | ⟨args, bar, admitted⟩
  · left
    have within := (follows_of_performs refused.performs).reached.filterMap
      Effect.written
    cases refused <;> exact List.prefix_nil.mp within
  · right
    have within := admitted.follows.reached.filterMap Effect.written
    rw [whole_writes] at within
    exact ⟨args, admitted.parsed, within⟩

/-- A filter that an option on one of the command lines names. -/
def Named (launches : List Launch) (filter : ValidAddress) : Prop :=
  ∃ launch ∈ launches,
    ∃ (line : Getopt.Line Arguments.known) (text : List Char),
      launch.argv = line.spell ∧ ('f', text) ∈ line.settings ∧
        filter.netAddr ∈ Splitting.pieces ',' [] text

theorem named_of_parsed {launches : List Launch} {launch : Launch}
    (member : launch ∈ launches) {args : Arguments}
    (parsed : Arguments.parseArgs launch.argv = .ok args)
    {filter : ValidAddress} (listed : filter.netAddr ∈ args.filterList) :
    Named launches filter := by
  have spelled : ∃ line : Getopt.Line Arguments.known,
      launch.argv = line.spell := Getopt.exists_line launch.argv
  rcases spelled with ⟨line, isLine⟩
  rw [isLine, CommandLine.parseArgs_spell] at parsed
  rcases CommandLine.outcome_ok parsed with ⟨rfl, -⟩
  rcases List.mem_flatMap.mp listed with ⟨⟨name, text⟩, given, added⟩
  rw [CommandLine.filtersOf] at added
  split at added
  · next isFilter =>
      have isF : name = 'f' := isFilter
      subst isF
      exact ⟨launch, member, line, text, isLine, given, added⟩
  · cases added

theorem netAddr_mem_of_accepted {filterList : List (List Char)}
    {filter : ValidAddress} (member : filter ∈ Box.accepted filterList) :
    filter.netAddr ∈ filterList := by
  rcases Box.accepted_split filterList with ⟨rest, isList, -⟩
  rw [isList]
  exact List.mem_append_left _ (List.mem_map_of_mem member)

theorem exists_runs (launches : List Launch) :
    ∃ runs : List Box.ServerRun,
      launches.flatMap Launch.writes = runs.flatMap Box.ServerRun.written ∧
        ∀ run ∈ runs, ∀ filter ∈ Box.accepted run.filterList,
          Named launches filter := by
  suffices own : ∀ some : List Launch, some ⊆ launches →
      ∃ runs : List Box.ServerRun,
        some.flatMap Launch.writes = runs.flatMap Box.ServerRun.written ∧
          ∀ run ∈ runs, ∀ filter ∈ Box.accepted run.filterList,
            Named launches filter from own launches (List.Subset.refl _)
  intro some within
  induction some with
  | nil => exact ⟨[], rfl, fun _ member => absurd member List.not_mem_nil⟩
  | cons launch rest induction =>
      rcases induction fun other member =>
          within (List.mem_cons_of_mem launch member)
        with ⟨runs, written, named⟩
      rcases launch.writes_within with nothing | ⟨args, parsed, wrote⟩
      · exact ⟨runs, by rw [List.flatMap_cons, nothing, written]; rfl, named⟩
      · refine ⟨⟨args.filterList, launch.writes, wrote⟩ :: runs, ?_, ?_⟩
        · rw [List.flatMap_cons, List.flatMap_cons, written]
        · intro run member filter isAccepted
          rcases List.mem_cons.mp member with rfl | later
          · exact named_of_parsed (within List.mem_cons_self) parsed
              (netAddr_mem_of_accepted isAccepted)
          · exact named run later filter isAccepted

/-- The program is run any number of times while the cores are invoked, and
`phit_idx` of the first core never overflows. -/
structure Service where
  launches : List Launch
  trace : Box.Trace
  performs : Interleaving.writes trace = launches.flatMap Launch.writes
  inRange : ∀ packet ∈ packets (Box.firstRun trace), packet.length ≤ 2 ^ 31

theorem Service.exists_operation (service : Service) :
    ∃ operation : Box.DefinedOperation, operation.trace = service.trace ∧
      ∀ filter ∈ operation.accepted, Named service.launches filter := by
  rcases exists_runs service.launches with ⟨runs, written, named⟩
  refine ⟨⟨⟨runs, service.trace, service.performs.trans written⟩,
    service.inRange⟩, rfl, ?_⟩
  intro filter member
  rcases List.mem_flatMap.mp member with ⟨run, isRun, isAccepted⟩
  exact named run isRun filter isAccepted

/-- Whatever is run in whatever worlds, a packet of which a phit leaves the
first function shares a slot with an address that the command lines name, the
IP address in one filter and the port in the same or in another one. -/
theorem only_named_leave (shell : Shell) (build : Hardware.AddressMap.Build)
    (service : Service) {before after : Box.Trace} {phit : Hardware.Axis250}
    (split : service.trace = before ++ .act (0, some phit) :: after)
    (leaves : Box.answer shell build before phit = some (0, [phit])) :
    ∃ address first second,
      Hardware.firstPhitKey (Box.packetStart before phit) = some address ∧
      Named service.launches first ∧ Named service.launches second ∧
      addressSlot address = addressSlot (first.ip, second.port) := by
  rcases service.exists_operation with ⟨operation, isTrace, named⟩
  rcases Box.exists_filters_of_leaves shell build operation
      (isTrace.trans split) leaves
    with ⟨address, addressed, first, isFirst, second, isSecond, sameSlot⟩
  exact ⟨address, first, second, addressed, named first isFirst,
    named second isSecond, sameSlot⟩

def sampleLaunch : Launch where
  environment := workingEnvironment
  argv := sampleArgv

def sampleTrace : Box.Trace :=
  Box.onFirst (idleAfterEach (filterWrites [firstAddress])).trace

def sampleService : Service where
  launches := [sampleLaunch]
  trace := sampleTrace ++ [.act (0, some plainPhit.phit)]
  performs := by decide +kernel
  inRange := by decide +kernel

theorem only_named_leave_sample :
    ∃ address first second,
      Hardware.firstPhitKey (Box.packetStart sampleTrace plainPhit.phit) =
        some address ∧
      Named sampleService.launches first ∧
      Named sampleService.launches second ∧
      addressSlot address = addressSlot (first.ip, second.port) :=
  only_named_leave Box.openNic Box.twoFunctions sampleService rfl
    (by decide +kernel)

end PacketFilter.Contracts.Server
