import PacketFilter.Contracts.CommandLine
import PacketFilter.Contracts.CounterReads
import PacketFilter.Contracts.Delivery
import PacketFilter.Contracts.Registration
import PacketFilter.Software.Server

/-! # Server contracts

What a run of `main` does to the world, however it ends, and which registers it
accesses.
-/

namespace PacketFilter.Contracts.Server

open CText EffectLog Software Software.Server

variable (environment : Environment)

/-! ## Reports -/

section Counters

variable (bar base : BitVec 32)

def statReads (offset : BitVec 32) : List Effect :=
  [.read bar (base + offset), .read bar (base + (offset + 4))]

def statAnswer (log : List Effect) (offset : BitVec 32) : BitVec 64 :=
  words.symm
    (environment.readReg (log ++ [.read bar (base + offset)]) bar
        (base + (offset + 4)),
      environment.readReg log bar (base + offset))

def statAnswers : List Effect → List (BitVec 32) → List (BitVec 64)
  | _, [] => []
  | log, offset :: rest =>
      statAnswer environment bar base log offset ::
        statAnswers (log ++ statReads bar base offset) rest

theorem performs_readStat {base : BitVec 32} (isSet : base ≠ 0)
    (offset : BitVec 32) (log : List Effect) :
    Performs (readStat environment bar base offset) log
      (.ok (statAnswer environment bar base log offset))
      (statReads bar base offset) := by
  have wide : ¬ Integral.uint64.bits ≤ 32 := by decide
  have read : Performs
      (Software.read (fun address => ask (.read bar address) fun log =>
        environment.readReg log bar address) base .uint64 offset)
      log (.ok (statAnswer environment bar base log offset))
      (statReads bar base offset) := by
    rw [read_of_wide wide, mmioRegRead_of_set isSet, mmioRegRead_of_set isSet]
    exact (performs_ask _ _ log).bind
      ((performs_ask _ _ _).bind (performs_pure _ _))
  exact read.adapt Failure.access

end Counters

def reportEffects (title : String) (lines : List (String × BitVec 64)) :
    List Effect :=
  .log title [] :: lines.map fun (str, val) => .log str [val.toNat]

theorem performs_logReport (title : String) (lines : List (String × BitVec 64))
    (log : List Effect) :
    Performs (logReport title lines) log (.ok ()) (reportEffects title lines) := by
  refine (performs_perform (Effect.log title []) log).bind ?_
  exact performs_forM_perform
    (fun line : String × BitVec 64 => Effect.log line.1 [line.2.toNat]) lines _

theorem performs_shown {Report : Type} (silent : Prop) [Decidable silent]
    (report : Report) (log : List Effect) :
    Performs (if silent then return none else return some report : Program _) log
      (.ok (if silent then none else some report)) [] := by
  split
  · exact performs_pure none log
  · exact performs_pure (some report) log

section Reports

variable (log : List Effect) (bar : BitVec 32)

def adapterRegs : List (BitVec 32) :=
  [txPacketSentReg, txPacketDroppedReg, rxPacketRecvReg, rxPacketDroppedReg,
    rxPacketErrorReg]

def adapterReport : Option AdapterReport :=
  let answers := statAnswers environment bar opennicAdapBaseAddr log adapterRegs
  let report := ⟨answers.getD 0 0, answers.getD 1 0, answers.getD 2 0,
    answers.getD 3 0, answers.getD 4 0⟩
  if report.rxPacketRecv = 0 ∧ report.txPacketSent = 0 then none
  else some report

def adapterEffects : List Effect :=
  adapterRegs.flatMap (statReads bar opennicAdapBaseAddr) ++
    (adapterReport environment log bar).elim [] fun report =>
      reportEffects "Packet Adapter Statistics:" report.lines

theorem performs_packetAdapter (constructed : mmio environment 0 = .ok bar) :
    Performs (packetAdapter environment) log (.ok ())
      (adapterEffects environment log bar) := by
  have isSet : opennicAdapBaseAddr ≠ 0 := by decide
  have read := performs_readStat environment bar isSet
  have reads : Performs
      (showAdapterStats (readStat environment bar opennicAdapBaseAddr)) log
      (.ok (adapterReport environment log bar))
      (adapterRegs.flatMap (statReads bar opennicAdapBaseAddr)) :=
    (read txPacketSentReg log).bind ((read txPacketDroppedReg _).bind
      ((read rxPacketRecvReg _).bind ((read rxPacketDroppedReg _).bind
        ((read rxPacketErrorReg _).bind (performs_shown _ _ _)))))
  rw [packetAdapter, constructed]
  refine (performs_attempt Failure.device (.ok bar) log).bind_silent ?_
  refine reads.bind ?_
  cases adapterReport environment log bar with
  | none => exact performs_pure () _
  | some report => exact performs_logReport _ _ _

def filterReport : Option StatsReport :=
  let answers := statAnswers environment bar baseAddr log statsRegs
  let report := ⟨answers.getD 0 0, answers.getD 1 0, answers.getD 2 0,
    answers.getD 3 0⟩
  if report.pktIn = 0 ∧ report.pktForwd = 0 ∧ report.pktDrop = 0 then none
  else some report

def filterEffects : List Effect :=
  statsRegs.flatMap (statReads bar baseAddr) ++
    (filterReport environment log bar).elim [] fun report =>
      reportEffects "Packet Filter Statistics:" report.lines

theorem performs_packetFilterStats :
    Performs (packetFilterStats environment bar) log (.ok ())
      (filterEffects environment log bar) := by
  have read := performs_readStat environment bar baseAddr_ne_zero
  have reads : Performs (showStats (readStat environment bar baseAddr)) log
      (.ok (filterReport environment log bar))
      (statsRegs.flatMap (statReads bar baseAddr)) :=
    (read statsPktInReg log).bind ((read statsPhitInReg _).bind
      ((read statsPktForwdReg _).bind ((read statsPktDropReg _).bind
        (performs_shown _ _ _))))
  refine reads.bind ?_
  cases filterReport environment log bar with
  | none => exact performs_pure () _
  | some report => exact performs_logReport _ _ _

end Reports

/-! ## Stages -/

def closing (portNum : BitVec 16) : List Effect :=
  [.joinMainThread, .mpWaitLcore] ++
    (((List.range portNum.toNat).flatMap fun portId =>
      [.stop (BitVec.ofNat 16 portId), .close (BitVec.ofNat 16 portId)]) ++
        [.cleanup])

/-- The destructor gets to it only when all loops have been launched. -/
def closingAfter (portNum : BitVec 16) : Except Failure Unit → List Effect
  | .error _ => []
  | .ok () => closing portNum

theorem performs_shutdown (portNum : BitVec 16)
    (launched : Except LaunchFailure Unit) (log : List Effect) :
    Performs (shutdown portNum launched) log (launched.mapError .launch)
      (closingAfter portNum (launched.mapError .launch)) := by
  have turn : ∀ (portId : Nat) (log : List Effect),
      Performs (do
          perform (.stop (BitVec.ofNat 16 portId))
          perform (.close (BitVec.ofNat 16 portId)) : Program Unit) log (.ok ())
        [.stop (BitVec.ofNat 16 portId), .close (BitVec.ofNat 16 portId)] :=
    fun _ _ => (performs_perform _ _).bind (performs_perform _ _)
  cases launched with
  | error failure =>
      exact (performs_attempt Failure.launch (.error failure) log).bind_error _
  | ok _ =>
      refine (performs_attempt Failure.launch (.ok ()) log).bind_silent ?_
      refine (performs_perform Effect.joinMainThread log).bind ?_
      refine (performs_perform Effect.mpWaitLcore _).bind ?_
      exact (performs_forM turn _ _).bind (performs_perform Effect.cleanup _)

theorem performs_writes (bar : BitVec 32) (writes : List RegisterWrite)
    (log : List Effect) :
    Performs
      (forM writes fun written => (perform (.write bar written) : Program Unit))
      log (.ok ()) (writes.map (.write bar)) :=
  performs_forM_perform (Effect.write bar) writes log

theorem performs_packetFilter {bar : BitVec 32}
    (constructed : mmio environment 0 = .ok bar) (filterList : List (List Char))
    (log : List Effect) :
    Performs (Server.packetFilter environment filterList) log
      ((Software.packetFilter filterList).2.elim (.ok bar)
        fun failure => .error (.rule failure))
      ((Software.packetFilter filterList).1.map (.write bar)) := by
  have driver := Driver.execute_packetFilter filterList ⟨0, []⟩
  have written := performs_writes bar (Software.packetFilter filterList).1 log
  rw [Server.packetFilter, constructed, driver, List.nil_append]
  refine (performs_attempt .device (.ok bar) log).bind_silent ?_
  rw [← List.append_nil ((Software.packetFilter filterList).1.map _)]
  refine written.bind ?_
  cases (Software.packetFilter filterList).2 with
  | none =>
      exact (performs_attempt Failure.rule (.ok ()) _).bind_silent
        (performs_pure bar _)
  | some failure =>
      exact (performs_attempt Failure.rule (.error failure) _).bind_error _

/-! ## Runs -/

def initiation (args : Arguments) : Effect :=
  .ealInit (dpdkArgv (args.dpdkConfig.getD []))

def waiting (args : Arguments) : List Effect :=
  [.log "Running for %u seconds..." [args.duration.toNat], .wait args.duration,
    .log "Time's up, shutting down..." []]

/-- A run that gets to its filters: its arguments, and the BAR that it writes
to. -/
structure Admitted (argv : List (List Char)) (args : Arguments)
    (bar : BitVec 32) : Prop where
  parsed : Arguments.parseArgs argv = .ok args
  registered : ∃ threadInfos registered : ThreadInfos Unit,
    initDpdk environment.eal args.numThreads.toNat = .ok threadInfos ∧
      registerCallbacks threadInfos args.numThreads () = .ok registered
  constructed : mmio environment 0 = .ok bar

/-- A run that fails before that: how it fails, and what it has done by then. -/
inductive Refused (argv : List (List Char)) : Failure → List Effect → Prop
  | arguments {failure} (parsed : Arguments.parseArgs argv = .error failure) :
      Refused argv (.arguments failure) []
  | init {args failure} (parsed : Arguments.parseArgs argv = .ok args)
      (started : (initDpdk environment.eal args.numThreads.toNat :
        Except InitFailure (ThreadInfos Unit)) = .error failure) :
      Refused argv (.init failure) [initiation args]
  | callback {args message} {threadInfos : ThreadInfos Unit}
      (parsed : Arguments.parseArgs argv = .ok args)
      (started : initDpdk environment.eal args.numThreads.toNat =
        .ok threadInfos)
      (registered : registerCallbacks threadInfos args.numThreads () =
        .error message) :
      Refused argv (.callback message) [initiation args]
  | device {args failure} {threadInfos registered : ThreadInfos Unit}
      (parsed : Arguments.parseArgs argv = .ok args)
      (started : initDpdk environment.eal args.numThreads.toNat =
        .ok threadInfos)
      (registers : registerCallbacks threadInfos args.numThreads () =
        .ok registered)
      (constructed : mmio environment 0 = .error failure) :
      Refused argv (.device failure) [initiation args]

theorem refused_or_admitted (argv : List (List Char)) :
    (∃ failure performed, Refused environment argv failure performed) ∨
      ∃ args bar, Admitted environment argv args bar := by
  cases parsed : Arguments.parseArgs argv with
  | error failure => exact .inl ⟨_, _, .arguments parsed⟩
  | ok args =>
      cases started : (initDpdk environment.eal args.numThreads.toNat :
          Except InitFailure (ThreadInfos Unit)) with
      | error failure => exact .inl ⟨_, _, .init parsed started⟩
      | ok threadInfos =>
          cases registers : registerCallbacks threadInfos args.numThreads ()
              with
          | error message => exact .inl ⟨_, _, .callback parsed started registers⟩
          | ok registered =>
              cases constructed : mmio environment 0 with
              | error failure =>
                  exact .inl ⟨_, _, .device parsed started registers constructed⟩
              | ok bar =>
                  exact .inr ⟨args, bar, parsed,
                    ⟨threadInfos, registered, started, registers⟩, constructed⟩

def launched (args : Arguments) : Except Failure Unit := do
  let threadInfos : ThreadInfos Unit ←
    (initDpdk environment.eal args.numThreads.toNat).mapError .init
  (launch environment.remoteLaunch threadInfos).mapError .launch

def finish (args : Arguments) (bar : BitVec 32) (log : List Effect) :
    List Effect :=
  let waited := log ++ waiting args
  let adapter := adapterEffects environment waited bar
  let filter := filterEffects environment (waited ++ adapter) bar
  waiting args ++ (adapter ++
    (filter ++ closingAfter environment.eal.portNum (launched environment args)))

/-- What comes behind the start-up of a run that is admitted. -/
def serve (args : Arguments) (threadInfos : ThreadInfos Unit) :
    Program Unit := do
  let bar ← Server.packetFilter environment args.filterList
  perform (.log "Running for %u seconds..." [args.duration.toNat])
  perform (.wait args.duration)
  perform (.log "Time's up, shutting down..." [])
  packetAdapter environment
  packetFilterStats environment bar
  shutdown environment.eal.portNum (launch environment.remoteLaunch threadInfos)

section Serve

variable {environment} {bar : BitVec 32} (constructed : mmio environment 0 = .ok bar)
  (args : Arguments) {threadInfos : ThreadInfos Unit} (log : List Effect)
include constructed

theorem serve_rejected {failure : UpdateFailure}
    (rejected : (Software.packetFilter args.filterList).2 = some failure) :
    Performs (serve environment args threadInfos) log (.error (.rule failure))
      ((Software.packetFilter args.filterList).1.map (.write bar)) := by
  have stopped := performs_packetFilter environment constructed args.filterList log
  rw [rejected] at stopped
  exact stopped.bind_error _

theorem serve_accepted
    (isStarted : initDpdk environment.eal args.numThreads.toNat = .ok threadInfos)
    (accepted : (Software.packetFilter args.filterList).2 = none) :
    let written := (Software.packetFilter args.filterList).1.map (.write bar)
    Performs (serve environment args threadInfos) log (launched environment args)
      (written ++ finish environment args bar (log ++ written)) := by
  have isLaunched : launched environment args =
      (launch environment.remoteLaunch threadInfos).mapError .launch := by
    rw [launched, isStarted]
    rfl
  have installed := performs_packetFilter environment constructed args.filterList
    log
  rw [accepted] at installed
  refine installed.bind ?_
  refine (performs_perform
    (Effect.log "Running for %u seconds..." [args.duration.toNat]) _).bind ?_
  refine (performs_perform (Effect.wait args.duration) _).bind ?_
  refine (performs_perform
    (Effect.log "Time's up, shutting down..." []) _).bind ?_
  rw [List.append_assoc _ [Effect.log _ _], List.append_assoc _ (_ ++ _),
    isLaunched]
  exact (performs_packetAdapter environment _ bar constructed).bind
    ((performs_packetFilterStats environment _ bar).bind
      (performs_shutdown _ _ _))

end Serve

section Start

variable {environment} {argv : List (List Char)}

theorem performs_dpdk (args : Arguments) {started : Except InitFailure
      (ThreadInfos Unit)}
    (isStarted : initDpdk environment.eal args.numThreads.toNat = started)
    (log : List Effect) :
    Performs (dpdk environment (args.dpdkConfig.getD []) args.numThreads) log
      (started.mapError Failure.init) [initiation args] := by
  rw [← isStarted]
  exact (performs_perform (initiation args) log).bind
    (performs_attempt Failure.init _ _)

theorem performs_main {args : Arguments} {threadInfos : ThreadInfos Unit}
    (parsed : Arguments.parseArgs argv = .ok args)
    (started : initDpdk environment.eal args.numThreads.toNat =
      .ok threadInfos)
    {ended : Except Failure Unit} {performed : List Effect}
    (follows : Performs (do
        let _ ← attempt Failure.callback
          (registerCallbacks threadInfos args.numThreads ())
        serve environment args threadInfos) [initiation args] ended performed) :
    Performs (main environment argv) [] ended (initiation args :: performed) := by
  rw [main, parsed]
  refine (performs_attempt Failure.arguments (.ok args) []).bind_silent ?_
  exact (performs_dpdk args started []).bind follows

theorem Refused.performs {failure : Failure} {performed : List Effect}
    (refused : Refused environment argv failure performed) :
    Performs (main environment argv) [] (.error failure) performed := by
  cases refused with
  | arguments parsed =>
      rw [main, parsed]
      exact (performs_attempt Failure.arguments (.error _) []).bind_error _
  | init parsed started =>
      rw [main, parsed]
      refine (performs_attempt Failure.arguments (.ok _) []).bind_silent ?_
      exact (performs_dpdk _ started []).bind_error _
  | callback parsed started registered =>
      apply performs_main parsed started
      rw [registered]
      exact (performs_attempt Failure.callback (.error _) _).bind_error _
  | device parsed started registers constructed =>
      apply performs_main parsed started
      rw [registers]
      refine (performs_attempt Failure.callback (.ok _) _).bind_silent ?_
      rw [serve, Server.packetFilter, constructed]
      exact ((performs_attempt Failure.device (.error _) _).bind_error _).bind_error _

theorem Admitted.performs {args : Arguments} {bar : BitVec 32}
    (admitted : Admitted environment argv args bar)
    {ended : Except Failure Unit} {performed : List Effect}
    (serves : ∀ threadInfos,
      initDpdk environment.eal args.numThreads.toNat = .ok threadInfos →
      Performs (serve environment args threadInfos) [initiation args] ended
        performed) :
    Performs (main environment argv) [] ended (initiation args :: performed) := by
  rcases admitted.registered with ⟨threadInfos, registered, started, registers⟩
  apply performs_main admitted.parsed started
  rw [registers]
  exact (performs_attempt Failure.callback (.ok _) _).bind_silent
    (serves threadInfos started)

end Start

def ending (filterList : List (List Char)) : Except UpdateFailure Unit :=
  (Software.packetFilter filterList).2.elim (.ok ()) .error

def behind (args : Arguments) (bar : BitVec 32) (log : List Effect) :
    Except UpdateFailure Unit → List Effect
  | .error _ => []
  | .ok () => finish environment args bar log

def started (args : Arguments) (bar : BitVec 32) : List Effect :=
  initiation args ::
    (Software.packetFilter args.filterList).1.map (.write bar)

def whole (args : Arguments) (bar : BitVec 32) : List Effect :=
  started args bar ++
    behind environment args bar (started args bar) (ending args.filterList)

def outcome (args : Arguments) (ended : Except UpdateFailure Unit) :
    Except Failure Unit := do
  ended.mapError .rule
  launched environment args

/-- The run performs all of this and ends so, or it is stopped on the way. -/
def Follows (argv : List (List Char)) (ended : Except Failure Unit)
    (performed : List Effect) : Prop :=
  run environment argv = (ended, performed) ∨
    (run environment argv).1 = .error .stopped ∧
      (run environment argv).2 <+: performed

section Follows

variable {environment} {argv : List (List Char)}

theorem follows_of_performs {ended : Except Failure Unit}
    {performed : List Effect}
    (performs : Performs (main environment argv) [] ended performed) :
    Follows environment argv ended performed := by
  have executed : FailingState.execute (main environment argv) [] =
      (ended, performed) := performs
  rw [Follows, run, executed]
  exact cutOff_eq_or environment.stops .stopped (ended, performed)

theorem Follows.reached {ended : Except Failure Unit} {performed : List Effect}
    (follows : Follows environment argv ended performed) :
    (run environment argv).2 <+: performed := by
  rcases follows with all | ⟨-, within⟩
  · rw [all]
  · exact within

theorem Admitted.follows {args : Arguments} {bar : BitVec 32}
    (admitted : Admitted environment argv args bar) :
    Follows environment argv (outcome environment args (ending args.filterList))
      (whole environment args bar) := by
  apply follows_of_performs
  rw [whole, outcome, ending]
  cases stopped : (Software.packetFilter args.filterList).2 with
  | some failure =>
      rw [Option.elim, behind, List.append_nil]
      exact admitted.performs fun _ _ =>
        serve_rejected admitted.constructed args [initiation args] stopped
  | none =>
      rw [Option.elim, behind]
      exact admitted.performs fun _ isStarted =>
        serve_accepted admitted.constructed args [initiation args] isStarted
          stopped

end Follows

def access : Effect → Option (BitVec 32 × BitVec 32)
  | .write bar written => some (bar, written.address)
  | .read bar address => some (bar, address)
  | _ => none

section Quiet

variable {Seen : Type} {view : Effect → Option Seen}
  (quiet : ∀ effect, access effect = none → view effect = none)
include quiet

theorem filterMap_of_quiet {effects : List Effect}
    (none : ∀ effect ∈ effects, access effect = none) :
    effects.filterMap view = [] :=
  List.filterMap_eq_nil_iff.mpr fun effect member =>
    quiet effect (none effect member)

theorem filterMap_reportEffects {Report : Type} (shown : Option Report)
    (title : String) (lines : Report → List (String × BitVec 64)) :
    (shown.elim [] fun report =>
      reportEffects title (lines report)).filterMap view = [] := by
  apply filterMap_of_quiet quiet
  cases shown with
  | none => exact fun _ member => absurd member List.not_mem_nil
  | some report =>
      intro effect member
      rcases List.mem_cons.mp member with rfl | printed
      · rfl
      · rcases List.mem_map.mp printed with ⟨line, -, rfl⟩
        rfl

theorem filterMap_closingAfter (portNum : BitVec 16)
    (launched : Except Failure Unit) :
    (closingAfter portNum launched).filterMap view = [] := by
  apply filterMap_of_quiet quiet
  cases launched with
  | error _ => exact fun _ member => absurd member List.not_mem_nil
  | ok _ =>
      intro effect member
      rcases List.mem_append.mp member with joined | after
      · rcases List.mem_pair.mp joined with rfl | rfl
        · rfl
        · rfl
      · rcases List.mem_append.mp after with port | last
        · rcases List.mem_flatMap.mp port with ⟨portId, -, stopped⟩
          rcases List.mem_pair.mp stopped with rfl | rfl
          · rfl
          · rfl
        · rcases List.mem_singleton.mp last with rfl
          rfl

theorem filterMap_waiting (args : Arguments) :
    (waiting args).filterMap view = [] := by
  apply filterMap_of_quiet quiet
  intro effect member
  simp only [waiting, List.mem_cons, List.not_mem_nil, or_false] at member
  rcases member with rfl | rfl | rfl
  · rfl
  · rfl
  · rfl

theorem filterMap_finish (args : Arguments) (bar : BitVec 32)
    (log : List Effect) :
    (finish environment args bar log).filterMap view =
      (adapterRegs.flatMap (statReads bar opennicAdapBaseAddr) ++
        statsRegs.flatMap (statReads bar baseAddr)).filterMap view := by
  simp only [finish, adapterEffects, filterEffects, List.filterMap_append,
    filterMap_waiting quiet, filterMap_reportEffects quiet,
    filterMap_closingAfter quiet, List.nil_append, List.append_nil]

end Quiet

theorem started_writes (args : Arguments) (bar : BitVec 32) :
    (started args bar).filterMap Effect.written =
      (Software.packetFilter args.filterList).1 := by
  rw [started, List.filterMap_cons_none rfl, List.filterMap_map]
  exact List.filterMap_some

theorem finish_writes (args : Arguments)
    (bar : BitVec 32) (log : List Effect) :
    (finish environment args bar log).filterMap Effect.written = [] := by
  have quiet : ∀ effect, access effect = none → effect.written = none := by
    intro effect none
    cases effect <;> first | rfl | cases none
  rw [filterMap_finish environment quiet]
  rfl

theorem whole_writes (args : Arguments) (bar : BitVec 32) :
    (whole environment args bar).filterMap Effect.written =
      (Software.packetFilter args.filterList).1 := by
  rw [whole, List.filterMap_append, started_writes]
  cases ending args.filterList with
  | error failure => exact List.append_nil _
  | ok _ => rw [behind, finish_writes, List.append_nil]

/-- The registers that a run may access: those of the first function, and the
counters of the adapter, outside the box. -/
inductive Reached (shell : Shell) (build : Hardware.AddressMap.Build)
    (address : BitVec 32) : Prop
  | first (inside : BitVec 32)
      (accessed : (shell.box250 address).bind
        (Hardware.AddressMap.access build.numPhysFunc) =
          some (.user 0 inside))
  | adapter (reg : BitVec 32) (isCounter : reg ∈ adapterRegs)
      (isWord : address = opennicAdapBaseAddr + reg ∨
        address = opennicAdapBaseAddr + (reg + 4))
      (outside : shell.box250 address = none)

section Reached

variable {environment} {shell : Shell} {build : Hardware.AddressMap.Build}

theorem reached_offset {offset : BitVec 32} (inside : offset.toNat < 2 ^ 12) :
    Reached shell build (baseAddr + offset) :=
  .first offset (PacketFilter.Box.access_driver shell build inside)

theorem reached_written {filterList : List (List Char)} {written : RegisterWrite}
    (isWrite : written ∈ (Software.packetFilter filterList).1) :
    Reached shell build written.address := by
  rcases Box.driverWrites_packetFilter filterList written isWrite
    with ⟨offset, inside, isDriver⟩
  rw [isDriver]
  exact reached_offset inside

theorem exists_reg_of_reads {bar base : BitVec 32} {regs : List (BitVec 32)}
    {accessed : BitVec 32 × BitVec 32}
    (member : accessed ∈
      (regs.flatMap (statReads bar base)).filterMap access) :
    ∃ reg ∈ regs, accessed = (bar, base + reg) ∨
      accessed = (bar, base + (reg + 4)) := by
  rcases List.mem_filterMap.mp member with ⟨effect, isRead, seen⟩
  rcases List.mem_flatMap.mp isRead with ⟨reg, isReg, isWord⟩
  refine ⟨reg, isReg, ?_⟩
  rcases List.mem_pair.mp isWord with rfl | rfl
  · exact .inl (Option.some.inj seen).symm
  · exact .inr (Option.some.inj seen).symm

theorem reached_adapter {reg address : BitVec 32} (isCounter : reg ∈ adapterRegs)
    (isWord : address = opennicAdapBaseAddr + reg ∨
      address = opennicAdapBaseAddr + (reg + 4)) :
    Reached shell build address := by
  have below : ∀ reg ∈ adapterRegs,
      (opennicAdapBaseAddr + reg).toNat < 0x100000 ∧
        (opennicAdapBaseAddr + (reg + 4)).toNat < 0x100000 := by
    simp [adapterRegs, opennicAdapBaseAddr, txPacketSentReg, txPacketDroppedReg,
      rxPacketRecvReg, rxPacketDroppedReg, rxPacketErrorReg]
  apply Reached.adapter reg isCounter isWord
  rcases isWord with rfl | rfl
  · exact shell.box250_below _ (below reg isCounter).1
  · exact shell.box250_below _ (below reg isCounter).2

theorem reached_finish {args : Arguments} {bar : BitVec 32} {log : List Effect}
    {accessed : BitVec 32 × BitVec 32}
    (member : accessed ∈
      (finish environment args bar log).filterMap access) :
    accessed.1 = bar ∧ Reached shell build accessed.2 := by
  rw [filterMap_finish environment fun _ none => none,
    List.filterMap_append] at member
  rcases List.mem_append.mp member with adapter | filter
  · rcases exists_reg_of_reads adapter with ⟨reg, isReg, rfl | rfl⟩
    · exact ⟨rfl, reached_adapter isReg (.inl rfl)⟩
    · exact ⟨rfl, reached_adapter isReg (.inr rfl)⟩
  · have inside : ∀ reg ∈ statsRegs,
        reg.toNat < 2 ^ 12 ∧ (reg + 4).toNat < 2 ^ 12 := by
      simp [statsRegs, statsPktInReg, statsPhitInReg, statsPktForwdReg,
        statsPktDropReg]
    rcases exists_reg_of_reads filter with ⟨reg, isReg, rfl | rfl⟩
    · exact ⟨rfl, reached_offset (inside reg isReg).1⟩
    · exact ⟨rfl, reached_offset (inside reg isReg).2⟩

end Reached

/-- A run accesses no register of another function. All accesses go through the
user BAR of port 0. -/
theorem run_accesses (shell : Shell) (build : Hardware.AddressMap.Build)
    (argv : List (List Char)) :
    ∀ accessed ∈ (run environment argv).2.filterMap access,
      mmio environment 0 = .ok accessed.1 ∧ Reached shell build accessed.2 := by
  intro accessed member
  rcases refused_or_admitted environment argv with
    ⟨failure, performed, refused⟩ | ⟨args, bar, admitted⟩
  · have follows := follows_of_performs refused.performs
    have among := (follows.reached.filterMap access).subset member
    cases refused <;> cases among
  · have among := (admitted.follows.reached.filterMap access).subset member
    rw [whole, List.filterMap_append] at among
    rcases List.mem_append.mp among with before | after
    · rw [started, List.filterMap_cons_none rfl] at before
      rcases List.mem_filterMap.mp before with ⟨effect, performed, seen⟩
      rcases List.mem_map.mp performed with ⟨written, isWrite, rfl⟩
      rcases Option.some.inj seen with rfl
      exact ⟨admitted.constructed, reached_written isWrite⟩
    · cases ended : ending args.filterList with
      | error failure =>
          rw [ended] at after
          cases after
      | ok _ =>
          rw [ended] at after
          rcases reached_finish after with ⟨rfl, reached⟩
          exact ⟨admitted.constructed, reached⟩

def workingEnvironment : Environment where
  eal := workingEal 1
  remoteLaunch _ := 0
  isQdma _ := true
  barDetails _ := (0, 2)
  readReg _ _ _ := 0
  stops _ := false

def sampleArgv : List (List Char) :=
  ["-c-l 0".toList, "-f".toList, "192.168.2.1:8500".toList]

theorem run_accesses_sample :
    mmio workingEnvironment 0 = .ok 2 ∧
      Reached Box.openNic Box.twoFunctions (baseAddr + ruleActionReg) :=
  run_accesses workingEnvironment Box.openNic Box.twoFunctions sampleArgv
    (2, baseAddr + ruleActionReg) (by decide +kernel)

end PacketFilter.Contracts.Server
