import PacketFilter.Contracts.Server
import PacketFilter.Contracts.WordReports

/-! # The server and the card

Runs of `main` while the card does its own work: the registers that a run writes
are those of the card, and the counters that it reports are read from it.
-/

namespace PacketFilter.Contracts.Server

open EffectLog Hardware Interleaving Platform Software Software.Server WordReports

/-- What happens to the first core: events from power-up to the start of the run,
and invocations while the run has performed exactly the effects of a log. -/
structure Card where
  earlier : Platform.Trace
  during : List Effect → List (Option Axis250)

namespace Card

variable (card : Card)

def trace (log : List Effect) : Platform.Trace :=
  card.earlier ++ woven Effect.written card.during [] log

def history (log : List Effect) : List Invocation :=
  invocations powerUp.registers (card.trace log)

theorem writes_trace (log : List Effect) :
    writes (card.trace log) =
      writes card.earlier ++ log.filterMap Effect.written := by
  rw [trace, writes_append, writes_woven]

/-- Behind every register write there is an invocation without a phit. -/
def Idles : Prop :=
  ∀ before effect, effect.written.isSome = true →
    none ∈ card.during (before ++ [effect])

/-- The counters are read from what the card has published. -/
def Answers (environment : Environment) (bar : BitVec 32) : Prop :=
  ∀ log, ∀ offset ∈ statsRegs,
    ∀ address ∈ [baseAddr + offset, baseAddr + (offset + 4)],
      environment.readReg log bar address =
        statsWord address (after (card.history log))

end Card

section Reports

variable {environment : Environment} {card : Card} {bar : BitVec 32}
  (answers : card.Answers environment bar)
include answers

end Reports

/-- A packet for 192.168.2.1:8500 arrives while a run for that address waits. -/
def sampleCard : Card where
  earlier := []
  during log := if log.length = 6 then [none, some plainPhit.phit] else [none]

def sampleWorld : Environment :=
  { workingEnvironment with
    readReg := fun log _ address =>
      statsWord address (after (sampleCard.history log)) }

def sampleArgs : Arguments :=
  ⟨some "-l 0".toList, 1, 10, ["192.168.2.1:8500".toList]⟩

theorem sampleWorld_admitted :
    Admitted sampleWorld sampleArgv sampleArgs 2 where
  parsed := by decide +kernel
  registered := ⟨_, _, rfl, rfl⟩
  constructed := by decide +kernel

theorem sampleCard_idles : sampleCard.Idles := by
  intro before effect _
  change none ∈ if (before ++ [effect]).length = 6 then
    [none, some plainPhit.phit] else [none]
  split
  · exact List.mem_cons_self
  · exact List.mem_cons_self

/-! ## Runs -/

section Runs

variable {environment : Environment} {argv : List (List Char)}
  {args : Arguments} {bar : BitVec 32}
  (admitted : Admitted environment argv args bar) {card : Card}
include admitted

theorem written_reached {reached : List Effect}
    (behindWrites : started args bar <+: reached)
    (within : reached <+: (run environment argv).2) :
    reached.filterMap Effect.written =
      filterWrites (Box.accepted args.filterList) := by
  have before := behindWrites.filterMap Effect.written
  have after := (within.trans admitted.follows.reached).filterMap Effect.written
  rw [started_writes] at before
  rw [whole_writes] at after
  rw [← Box.packetFilter_writes]
  exact after.eq_of_length_le before.length_le

theorem mem_policy_reached (idles : card.Idles) {reached : List Effect}
    (behindWrites : started args bar <+: reached)
    (within : reached <+: (run environment argv).2) {address : Address}
    (touched : Touched (Box.accepted args.filterList) address) :
    address ∈ policy (platform.run powerUp (card.trace reached)) := by
  have served : ∀ before effect, effect.written.isSome = true →
      (card.during (before ++ [effect])).any Option.isNone = true :=
    fun before effect isWrite =>
      List.any_eq_true.mpr ⟨none, idles before effect isWrite, rfl⟩
  rcases woven_paced Effect.written card.during served [] reached
    with ⟨lead, rest, isWoven, paced⟩
  have performs : writes rest =
      filterWrites (Box.accepted args.filterList) := by
    rw [← written_reached admitted behindWrites within,
      ← writes_woven Effect.written card.during [], isWoven, writes_append,
      writes_acts, List.nil_append]
  rw [Card.trace, isWoven, ← List.append_assoc, Mealy.run_append]
  exact (mem_policy_iff _ ⟨rest, performs⟩ paced address).mpr (.inl touched)

theorem writes_trace_reached (fresh : writes card.earlier = [])
    {reached : List Effect} (behindWrites : started args bar <+: reached)
    (within : reached <+: (run environment argv).2) :
    writes (card.trace reached) =
      filterWrites (Box.accepted args.filterList) := by
  rw [card.writes_trace, fresh, List.nil_append,
    written_reached admitted behindWrites within]

end Runs

/-! ## Packets while a run waits -/

/-- While the registers hold FORWARD, invocations alone close no address. -/
theorem mem_policy_acts {state : Platform} (forwards : state.registers.action = 1)
    {address : Address} (opened : address ∈ policy state)
    (acts : List (Option Axis250)) :
    address ∈ policy (platform.run state (acts.map .act)) := by
  have same : ∀ config ∈ insertions state.registers
      (acts.map .act : Platform.Trace), config = state.registers := by
    intro config member
    rw [insertions, readings_acts] at member
    exact List.eq_of_mem_replicate member
  change (platform.run state (acts.map .act)).device.statics.hashTable.table
    (addressSlot address) = 1
  rw [table_run]
  cases isLatest : DirectMapped.latest
      (fun config => decide (config.slot = addressSlot address))
      (insertions state.registers (acts.map .act)) with
  | none => exact opened
  | some config =>
      have isRule := same config (DirectMapped.mem_of_latest isLatest).1
      rw [Option.map_some, Option.getD_some, isRule, forwards]
      rfl

def openingPhit (before : Platform.Trace) (phit : Axis250) : Axis250 :=
  (Framing.openFrame Axis250.last
    (consumedPhits (invocations powerUp.registers before))).headD phit

section Waiting

variable {environment : Environment} {argv : List (List Char)}
  {args : Arguments} {bar : BitVec 32}
  (admitted : Admitted environment argv args bar) {card : Card}
  (fresh : writes card.earlier = []) {reached : List Effect}
  (behindWrites : started args bar <+: reached)
include admitted fresh behindWrites

theorem mem_policy_waiting_iff (idles : card.Idles)
    (within : reached <+: (run environment argv).2)
    (batch : List (Option Axis250)) (address : Address) :
    address ∈ policy (platform.run powerUp
        (card.trace reached ++ batch.map .act)) ↔
      Touched (Box.accepted args.filterList) address := by
  have written := writes_trace_reached admitted fresh behindWrites within
  constructor
  · intro opened
    apply Box.touched_of_mem_policy _ opened
    rw [writes_append, writes_acts, List.append_nil, written]
  · intro touched
    have opened := mem_policy_reached admitted idles behindWrites within touched
    have forwards : (platform.run powerUp
        (card.trace reached)).registers.action = 1 := by
      rw [run_eq, written]
      rcases List.eq_nil_or_concat (Box.accepted args.filterList)
        with none | ⟨front, last, isList⟩
      · rw [none] at touched
        exact absurd touched List.not_mem_nil
      · rw [isList, List.concat_eq_append, foldl_filterWrites]
        rfl
    rw [Mealy.run_append]
    exact mem_policy_acts forwards opened batch

/-- A phit that arrives between two later effects of a run leaves exactly when
its packet is for a slot of the filters. -/
theorem waiting_answers (idles : card.Idles) {effect : Effect}
    (within : reached ++ [effect] <+: (run environment argv).2)
    {batch later : List (Option Axis250)} {phit : Axis250}
    (arrives : card.during (reached ++ [effect]) = batch ++ some phit :: later)
    (inRange : ∀ packet ∈ packets (card.history (reached ++ [effect])),
      packet.length ≤ 2 ^ 31) :
    (platform.step
        (platform.run powerUp (card.trace reached ++ batch.map .act))
        (.act (some phit))).2 = [phit] ↔
      ∃ address,
        firstPhitKey (openingPhit (card.trace reached ++ batch.map .act) phit) =
            some address ∧
          Touched (Box.accepted args.filterList) address := by
  have earlier := (List.prefix_append reached [effect]).trans within
  have silent : effect.written = none := by
    have before := written_reached admitted behindWrites earlier
    have after := written_reached admitted
      (behindWrites.trans (List.prefix_append reached [effect])) within
    rw [List.filterMap_append, before, List.append_right_eq_self] at after
    cases isWrite : effect.written with
    | none => rfl
    | some written =>
        rw [List.filterMap_cons, isWrite] at after
        cases after
  have isTrace : card.trace (reached ++ [effect]) =
      (card.trace reached ++ batch.map .act) ++
        .act (some phit) :: later.map .act := by
    rw [Card.trace, Card.trace, woven_concat, silent, List.nil_append, arrives]
    simp
  rw [Card.history, isTrace] at inRange
  rw [Box.platform_answer inRange, ← openingPhit]
  have leaves_iff (keeps : Bool) :
      (if keeps then [phit] else []) = [phit] ↔ keeps = true := by
    cases keeps <;> simp
  have decides := mem_policy_waiting_iff admitted fresh behindWrites idles earlier
    batch
  cases addressed : firstPhitKey
      (openingPhit (card.trace reached ++ batch.map .act) phit) with
  | none =>
      rw [leaves_iff, keepsPhit_of_no_key addressed]
      refine iff_of_false Bool.false_ne_true ?_
      rintro ⟨address, found, -⟩
      cases found
  | some address =>
      rw [leaves_iff, keepsPhit_of_key addressed]
      simp only [Option.some.injEq, exists_eq_left']
      exact (Box.slotForwards_iff_mem_policy _ address).trans (decides address)

omit admitted fresh behindWrites in
theorem waiting_answers_sample :
    (platform.step
        (platform.run powerUp
          (sampleCard.trace ((run sampleWorld sampleArgv).2.take 5) ++
            [none].map .act))
        (.act (some plainPhit.phit))).2 = [plainPhit.phit] := by
  have begins : (run sampleWorld sampleArgv).2.take 6 =
      (run sampleWorld sampleArgv).2.take 5 ++ [.wait 10] := by decide +kernel
  have within : (run sampleWorld sampleArgv).2.take 5 ++ [.wait 10] <+:
      (run sampleWorld sampleArgv).2 := begins ▸ List.take_prefix 6 _
  have arrives : sampleCard.during
      ((run sampleWorld sampleArgv).2.take 5 ++ [.wait 10]) =
        [none] ++ some plainPhit.phit :: [] := by
    rw [← begins]
    decide +kernel
  have inRange : ∀ packet ∈ packets (sampleCard.history
      ((run sampleWorld sampleArgv).2.take 5 ++ [.wait 10])),
        packet.length ≤ 2 ^ 31 := by
    rw [← begins]
    decide +kernel
  have answered := waiting_answers sampleWorld_admitted rfl
    (List.prefix_iff_eq_take.mpr (by decide +kernel)) sampleCard_idles
    within arrives inRange
  exact answered.mpr
    ⟨(0x0102A8C0, 0x3421), by decide +kernel, by rw [Touched]; decide +kernel⟩

end Waiting

end PacketFilter.Contracts.Server
