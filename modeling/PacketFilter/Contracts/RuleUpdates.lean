import PacketFilter.Platform.SharedRegisters

/-! # Rule update contracts

Which rules reach the hash table while the software writes the registers one
at a time and the hardware reads them whenever no phit waits.
-/

namespace PacketFilter.Contracts

open Hardware Software Interleaving Platform

structure Schedule (performed : List RegisterWrite) where
  trace : Trace
  performs : writes trace = performed

structure Call where
  address : ValidAddress
  action : RuleAction

namespace Call

def writes (call : Call) : List RegisterWrite := call.address.writes call.action

def rule (call : Call) : Config := Platform.rule call.address call.action

theorem rule_action_eq_one_iff (call : Call) :
    call.rule.action = 1 ↔ call.action = .forward := by
  change actionRegister call.action = 1 ↔ call.action = .forward
  cases call.action <;> decide

end Call

def settled (start : Config) (calls : List Call) : Config :=
  (calls.getLast?.map Call.rule).getD start

theorem foldl_calls (start : Config) (calls : List Call) :
    (calls.flatMap Call.writes).foldl Config.writeRegister start =
      settled start calls := by
  induction calls using List.reverseRecOn with
  | nil => rfl
  | append_singleton calls call _ =>
      rw [List.flatMap_append, List.flatMap_singleton, List.foldl_append,
        Call.writes, foldl_writes, settled, List.getLast?_concat]
      rfl

/-! ## Cut points -/

theorem partial_writes (call : Call) {written unwritten : List RegisterWrite}
    (split : call.writes = written ++ unwritten) (begun : written ≠ [])
    (unfinished : unwritten ≠ []) :
    written = call.writes.take 1 ∨ written = call.writes.take 2 := by
  have three : call.writes.length = 3 :=
    congrArg List.length
      (ruleWrites_eq call.address.ip call.address.port call.action)
  have lengths := congrArg List.length split
  have leading := List.length_pos_iff.mpr begun
  have remaining := List.length_pos_iff.mpr unfinished
  have isPart : written = call.writes.take written.length := by
    rw [split, List.take_left]
  rw [three, List.length_append] at lengths
  have oneOrTwo : written.length = 1 ∨ written.length = 2 := by omega
  rcases oneOrTwo with one | two
  · left
    rwa [one] at isPart
  · right
    rwa [two] at isPart

/-- Wherever the writes of the calls are cut, the registers hold the rule of the
last completed call, overwritten by at most two writes of the next one. -/
theorem registers_at_cut (start : Config) {calls : List Call}
    {done left : List RegisterWrite}
    (split : calls.flatMap Call.writes = done ++ left) :
    ∃ earlier later, calls = earlier ++ later ∧
      ((done = earlier.flatMap Call.writes ∧
          done.foldl Config.writeRegister start = settled start earlier) ∨
        ∃ next rest, later = next :: rest ∧
          ((done = earlier.flatMap Call.writes ++ next.writes.take 1 ∧
              done.foldl Config.writeRegister start =
                ⟨next.address.ip, (settled start earlier).udpPort,
                  (settled start earlier).action⟩) ∨
            (done = earlier.flatMap Call.writes ++ next.writes.take 2 ∧
              done.foldl Config.writeRegister start =
                ⟨next.address.ip, next.address.port,
                  (settled start earlier).action⟩))) := by
  rcases split_flatMap Call.writes split with ⟨earlier, later, isCalls, place⟩
  refine ⟨earlier, later, isCalls, ?_⟩
  rcases place with between | ⟨next, rest, written, unwritten, isLater,
    isNext, begun, unfinished, isDone⟩
  · left
    rw [between, foldl_calls]
    exact ⟨rfl, rfl⟩
  · right
    refine ⟨next, rest, isLater, ?_⟩
    rw [isDone, List.foldl_append, foldl_calls]
    rcases partial_writes next isNext begun unfinished with isPart | isPart
    · left
      rw [isPart, Call.writes, foldl_take_one]
      exact ⟨rfl, rfl⟩
    · right
      rw [isPart, Call.writes, foldl_take_two]
      exact ⟨rfl, rfl⟩

/-! ## Half-written rules -/

theorem settled_of_forward {calls : List Call}
    (forwards : (settled powerUp.registers calls).action = 1) :
    ∃ earlier last, calls = earlier ++ [last] ∧ last.action = .forward ∧
      settled powerUp.registers calls = last.rule := by
  rcases List.eq_nil_or_concat calls with rfl | ⟨earlier, last, rfl⟩
  · exact absurd forwards (by decide)
  · rw [List.concat_eq_append] at forwards ⊢
    rw [settled, List.getLast?_concat] at forwards ⊢
    exact ⟨earlier, last, rfl, last.rule_action_eq_one_iff.mp forwards, rfl⟩

/-- What an idle invocation with action 1 inserts: the last completed call is
a FORWARD call, and its address is inserted as it is or with the fields of the
next call that have been overwritten so far. -/
theorem insertion_of_forward (calls : List Call)
    (schedule : Schedule (calls.flatMap Call.writes))
    (insertion : Insertion schedule.trace)
    (forwards : (insertion.rule powerUp).action = 1) :
    ∃ earlier last later, calls = earlier ++ last :: later ∧
      last.action = .forward ∧
      ((writes insertion.before = (earlier ++ [last]).flatMap Call.writes ∧
          insertion.rule powerUp = last.rule) ∨
        ∃ next rest, later = next :: rest ∧
          ((writes insertion.before =
                (earlier ++ [last]).flatMap Call.writes ++ next.writes.take 1 ∧
              insertion.rule powerUp =
                ⟨next.address.ip, last.address.port, 1⟩) ∨
            (writes insertion.before =
                (earlier ++ [last]).flatMap Call.writes ++ next.writes.take 2 ∧
              insertion.rule powerUp =
                ⟨next.address.ip, next.address.port, 1⟩))) := by
  have cut : calls.flatMap Call.writes =
      writes insertion.before ++ writes insertion.after :=
    schedule.performs.symm.trans insertion.writes_split
  rw [insertion.rule_eq] at forwards ⊢
  rcases registers_at_cut powerUp.registers cut
    with ⟨completed, later, isCalls, place⟩
  have opened : (settled powerUp.registers completed).action = 1 := by
    rcases place with ⟨-, registers⟩ | ⟨next, rest, -, ⟨-, registers⟩ |
      ⟨-, registers⟩⟩
    all_goals rwa [registers] at forwards
  rcases settled_of_forward opened
    with ⟨earlier, last, isCompleted, isForward, isRule⟩
  refine ⟨earlier, last, later, ?_, isForward, ?_⟩
  · rw [isCalls, isCompleted, List.append_assoc, List.singleton_append]
  · rw [← isCompleted]
    rcases place with ⟨made, registers⟩ | ⟨next, rest, isLater,
      ⟨made, registers⟩ | ⟨made, registers⟩⟩
    · rw [isRule] at registers
      exact .inl ⟨made, registers⟩
    · rw [opened, isRule] at registers
      exact .inr ⟨next, rest, isLater, .inl ⟨made, registers⟩⟩
    · rw [opened] at registers
      exact .inr ⟨next, rest, isLater, .inr ⟨made, registers⟩⟩

def firstAddress : ValidAddress :=
  ⟨"192.168.2.1:8500".toList, 0x0102A8C0, 0x3421, by decide +kernel⟩

def secondAddress : ValidAddress :=
  ⟨"192.168.2.95:8501".toList, 0x5F02A8C0, 0x3521, by decide +kernel⟩

def idleAfter (performed : List RegisterWrite) (done : Nat) :
    Schedule performed where
  trace := (performed.take done).map .write ++
    .act none :: (performed.drop done).map .write
  performs := by
    rw [writes_append, writes_act, writes_map_write, writes_map_write,
      List.take_append_drop]

def idleMoment (performed : List RegisterWrite) (done : Nat) :
    Insertion (idleAfter performed done).trace :=
  ⟨_, _, rfl⟩

def sampleCalls : List Call :=
  [⟨firstAddress, .forward⟩, ⟨secondAddress, .forward⟩]

theorem insertion_of_forward_sample :
    ∃ earlier last later, sampleCalls = earlier ++ last :: later ∧
      last.action = .forward :=
  let ⟨earlier, last, later, isCalls, isForward, _⟩ :=
    insertion_of_forward sampleCalls (idleAfter _ 4) (idleMoment _ 4)
      (by decide +kernel)
  ⟨earlier, last, later, isCalls, isForward⟩

/-- After the address of the second rule has been written over that of the
first one, an idle invocation opens the filter for 192.168.2.95:8500, which no
call was made for. -/
theorem not_insertion_of_one_call :
    ¬ ∀ (calls : List Call) (schedule : Schedule (calls.flatMap Call.writes))
      (insertion : Insertion schedule.trace),
      (insertion.rule powerUp).action = 1 →
      ∃ call ∈ calls, call.action = .forward ∧
        call.address.ip = (insertion.rule powerUp).ipv4Addr ∧
        call.address.port = (insertion.rule powerUp).udpPort := by
  intro atomic
  have mixed := atomic sampleCalls (idleAfter _ 4) (idleMoment _ 4)
    (by decide +kernel)
  revert mixed
  decide +kernel

/-! ## Lost rules -/

abbrev filterWrites (filters : List ValidAddress) : List RegisterWrite :=
  (packetFilter (filters.map ValidAddress.netAddr)).1

theorem filterWrites_eq (filters : List ValidAddress) :
    filterWrites filters = filters.flatMap fun filter => filter.writes .forward := by
  rw [filterWrites, ValidAddress.packetFilter_netAddrs]

theorem filterWrites_append (earlier later : List ValidAddress) :
    filterWrites (earlier ++ later) =
      filterWrites earlier ++ filterWrites later := by
  rw [filterWrites_eq, filterWrites_eq, filterWrites_eq, List.flatMap_append]

def forwardRule (filter : ValidAddress) : Config := ⟨filter.ip, filter.port, 1⟩

theorem rule_forward (filter : ValidAddress) :
    Platform.rule filter .forward = forwardRule filter := by
  have action : actionRegister .forward = 1 := by decide
  rw [Platform.rule, action, forwardRule]

theorem foldl_filterWrites (registers : Config) (earlier : List ValidAddress)
    (filter : ValidAddress) :
    (filterWrites (earlier ++ [filter])).foldl Config.writeRegister registers =
      forwardRule filter := by
  rw [filterWrites_append, List.foldl_append, filterWrites_eq [filter],
    List.flatMap_singleton, foldl_writes, rule_forward]

/-- An idle invocation happens when exactly these writes have been made. -/
def IdleAt (trace : Trace) (made : List RegisterWrite) : Prop :=
  ∃ insertion : Insertion trace, writes insertion.before = made

/-- A filter is inserted when an idle invocation happens between its third
write and the first write of the next filter, or already between its second
and its third write when it is not the first filter. So the last filter always
is when an idle invocation happens behind all writes. -/
theorem filters_inserted (start : Platform) (filters : List ValidAddress)
    (schedule : Schedule (filterWrites filters)) :
    (∀ earlier filter later, filters = earlier ++ filter :: later →
        IdleAt schedule.trace (filterWrites (earlier ++ [filter])) ∨
          earlier ≠ [] ∧ IdleAt schedule.trace
            (filterWrites earlier ++ (filter.writes .forward).take 2) →
        forwardRule filter ∈ insertions start.registers schedule.trace) ∧
      (IdleAt schedule.trace (filterWrites filters) →
        ∀ filter ∈ filters.getLast?,
          forwardRule filter ∈ insertions start.registers schedule.trace) := by
  have inserted : ∀ earlier filter,
      IdleAt schedule.trace (filterWrites (earlier ++ [filter])) →
      forwardRule filter ∈ insertions start.registers schedule.trace := by
    rintro earlier filter ⟨insertion, made⟩
    have found := insertion.rule_mem start
    rw [insertion.rule_eq, made, foldl_filterWrites] at found
    exact found
  constructor
  · rintro earlier filter later - (idle | ⟨nonempty, insertion, made⟩)
    · exact inserted earlier filter idle
    · have found := insertion.rule_mem start
      rcases List.eq_nil_or_concat earlier with rfl | ⟨front, last, rfl⟩
      · exact absurd rfl nonempty
      · rw [insertion.rule_eq, made, List.concat_eq_append, List.foldl_append,
          foldl_filterWrites, foldl_take_two] at found
        exact found
  · intro idle filter isLast
    rcases List.getLast?_eq_some_iff.mp isLast with ⟨earlier, isFilters⟩
    apply inserted earlier filter
    rwa [← isFilters]

theorem filters_inserted_sample :
    forwardRule secondAddress ∈ insertions powerUp.registers
      (idleAfter (filterWrites [firstAddress, secondAddress]) 6).trace :=
  (filters_inserted powerUp [firstAddress, secondAddress] (idleAfter _ 6)).2
    ⟨idleMoment _ 6, by decide +kernel⟩ secondAddress rfl

/-- When all six writes are made before the first idle invocation, the first of
two filters never reaches the table. -/
theorem not_filters_inserted :
    ¬ ∀ (start : Platform) (filters : List ValidAddress)
      (schedule : Schedule (filterWrites filters)),
      IdleAt schedule.trace (filterWrites filters) →
      ∀ filter ∈ filters,
        forwardRule filter ∈ insertions start.registers schedule.trace := by
  intro complete
  have missing := complete powerUp [firstAddress, secondAddress] (idleAfter _ 6)
    ⟨idleMoment _ 6, by decide +kernel⟩ firstAddress List.mem_cons_self
  revert missing
  decide +kernel

end PacketFilter.Contracts
