import PacketFilter.Foundation.DirectMapped

/-! # A writer and a reader that share a value

One party writes to a shared value, the other acts on whatever the value is at
that moment. Neither waits for the other, so a trace is any interleaving of
their events.
-/

namespace Interleaving

inductive Event (Write : Type u) (Act : Type v) where
  | write (written : Write)
  | act (action : Act)
  deriving DecidableEq

variable {Shared : Type u} {Write : Type v} {Act : Type w} {Item : Type x}

abbrev Trace (Write : Type v) (Act : Type w) := List (Event Write Act)

def writes (trace : Trace Write Act) : List Write :=
  trace.filterMap fun event =>
    match event with
    | .write written => some written
    | .act _ => none

@[simp] theorem writes_write (written : Write) (rest : Trace Write Act) :
    writes (.write written :: rest) = written :: writes rest := rfl

@[simp] theorem writes_act (action : Act) (rest : Trace Write Act) :
    writes (.act action :: rest) = writes rest := rfl

theorem writes_append (first second : Trace Write Act) :
    writes (first ++ second) = writes first ++ writes second :=
  List.filterMap_append

theorem writes_before {trace before after : Trace Write Act}
    (split : trace = before ++ after) : writes before <+: writes trace := by
  rw [split, writes_append]
  exact List.prefix_append _ _

theorem writes_map_write (written : List Write) :
    writes (written.map .write : Trace Write Act) = written := by
  induction written with
  | nil => rfl
  | cons first rest induction => exact congrArg (first :: ·) induction

def observed (apply : Shared → Write → Shared) (shared : Shared) :
    Trace Write Act → List (Shared × Act)
  | [] => []
  | .write written :: rest => observed apply (apply shared written) rest
  | .act action :: rest => (shared, action) :: observed apply shared rest

theorem observed_append (apply : Shared → Write → Shared) (shared : Shared)
    (first second : Trace Write Act) :
    observed apply shared (first ++ second) =
      observed apply shared first ++
        observed apply ((writes first).foldl apply shared) second := by
  induction first generalizing shared with
  | nil => rfl
  | cons event rest induction =>
      cases event with
      | write written => exact induction (apply shared written)
      | act action =>
          change (shared, action) :: observed apply shared (rest ++ second) = _
          rw [induction]
          rfl

theorem observed_split (apply : Shared → Write → Shared) (shared : Shared)
    (before after : Trace Write Act) (action : Act) :
    observed apply shared (before ++ .act action :: after) =
      observed apply shared before ++
        ((writes before).foldl apply shared, action) ::
          observed apply ((writes before).foldl apply shared) after := by
  rw [observed_append]
  rfl

/-! ## Writes that come in batches -/

/-- Cutting a sequence of batches in two cuts between two batches or inside
one of them. -/
theorem split_flatMap (batch : Item → List Write) {items : List Item}
    {done left : List Write} (split : items.flatMap batch = done ++ left) :
    ∃ earlier later, items = earlier ++ later ∧
      ((done = earlier.flatMap batch) ∨
        ∃ item rest written unwritten, later = item :: rest ∧
          batch item = written ++ unwritten ∧ written ≠ [] ∧
          unwritten ≠ [] ∧ done = earlier.flatMap batch ++ written) := by
  induction items generalizing done with
  | nil =>
      have empty := List.append_eq_nil_iff.mp split.symm
      exact ⟨[], [], rfl, .inl empty.1⟩
  | cons item rest induction =>
      rw [List.flatMap_cons] at split
      rcases List.append_eq_append_iff.mp split with
        ⟨further, isDone, isRest⟩ | ⟨unwritten, isBatch, isLeft⟩
      · rcases induction isRest with ⟨earlier, later, isItems, cut⟩
        refine ⟨item :: earlier, later, by rw [isItems]; rfl, ?_⟩
        rcases cut with between | ⟨next, others, written, unwritten, inside⟩
        · left
          rw [isDone, between]
          rfl
        · right
          refine ⟨next, others, written, unwritten, inside.1, inside.2.1,
            inside.2.2.1, inside.2.2.2.1, ?_⟩
          rw [isDone, inside.2.2.2.2, List.flatMap_cons, List.append_assoc]
      · by_cases noneWritten : done = []
        · exact ⟨[], item :: rest, rfl, .inl noneWritten⟩
        · by_cases noneLeft : unwritten = []
          · refine ⟨[item], rest, rfl, .inl ?_⟩
            rw [List.flatMap_singleton, isBatch, noneLeft, List.append_nil]
          · exact ⟨[], item :: rest, rfl, .inr ⟨item, rest, done, unwritten,
              rfl, isBatch, noneWritten, noneLeft, rfl⟩⟩

/-- When a sequence of batches has been performed up to some write, all batches
that have begun are complete but for the last. -/
theorem exists_begun (batch : Item → List Write)
    (nonempty : ∀ item, batch item ≠ []) {items : List Item}
    {done : List Write} (performed : done <+: items.flatMap batch) :
    ∃ begun, begun <+: items ∧ begun.dropLast.flatMap batch <+: done ∧
      (begun ≠ [] → begun.dropLast.flatMap batch ≠ done) ∧
      done <+: begun.flatMap batch := by
  rcases performed with ⟨left, split⟩
  rcases split_flatMap batch split.symm with ⟨earlier, later, rfl, cut⟩
  rcases cut with isDone | ⟨item, rest, written, unwritten, rfl, isBatch, begins,
    -, isDone⟩
  · rw [isDone]
    refine ⟨earlier, List.prefix_append _ _, ?_, ?_, List.prefix_rfl⟩
    · have shorter := List.dropLast_prefix earlier
      rcases shorter with ⟨last, isEarlier⟩
      refine ⟨last.flatMap batch, ?_⟩
      rw [← List.flatMap_append, isEarlier]
    · intro isBegun
      rcases List.eq_nil_or_concat earlier with none | ⟨front, last, rfl⟩
      · exact absurd none isBegun
      · rw [List.concat_eq_append, List.dropLast_concat, List.flatMap_append,
          List.flatMap_singleton]
        exact fun same => nonempty last (List.self_eq_append_right.mp same)
  · refine ⟨earlier ++ [item], ⟨rest, by rw [List.append_assoc]; rfl⟩, ?_, ?_, ?_⟩
    · rw [List.dropLast_concat, isDone]
      exact List.prefix_append _ _
    · rw [List.dropLast_concat, isDone]
      exact fun _ same => begins (List.self_eq_append_right.mp same)
    · rw [List.flatMap_append, List.flatMap_singleton, isDone, isBatch]
      exact (List.prefix_append_right_inj _).mpr (List.prefix_append _ _)

/-! ## Writes the reader keeps up with -/

def snapshots (apply : Shared → Write → Shared) (shared : Shared) :
    List Write → List Shared
  | [] => []
  | written :: rest =>
      apply shared written :: snapshots apply (apply shared written) rest

theorem snapshots_append (apply : Shared → Write → Shared) (shared : Shared)
    (first second : List Write) :
    snapshots apply shared (first ++ second) =
      snapshots apply shared first ++
        snapshots apply (first.foldl apply shared) second := by
  induction first generalizing shared with
  | nil => rfl
  | cons written rest induction =>
      rw [List.cons_append, snapshots, induction]
      rfl

theorem foldl_mem_snapshots (apply : Shared → Write → Shared) (shared : Shared)
    (written : List Write) :
    written.foldl apply shared ∈ shared :: snapshots apply shared written := by
  induction written generalizing shared with
  | nil => exact List.mem_cons_self
  | cons first rest induction => exact List.mem_cons_of_mem _ (induction _)

/-- What every batch preserves at each of its writes holds all along. -/
theorem forall_mem_snapshots_flatMap (Invariant : Shared → Prop)
    {apply : Shared → Write → Shared} {batch : Item → List Write}
    {items : List Item}
    (preserved : ∀ item ∈ items, ∀ shared, Invariant shared →
      ∀ value ∈ snapshots apply shared (batch item), Invariant value)
    {shared : Shared} (start : Invariant shared) :
    ∀ value ∈ shared :: snapshots apply shared (items.flatMap batch),
      Invariant value := by
  induction items generalizing shared with
  | nil =>
      intro value member
      rcases List.mem_singleton.mp member with rfl
      exact start
  | cons item rest induction =>
      have own := preserved item List.mem_cons_self shared start
      have kept : ∀ value ∈ shared :: snapshots apply shared (batch item),
          Invariant value := List.forall_mem_cons.mpr ⟨start, own⟩
      have later := induction
        (fun other member => preserved other (List.mem_cons_of_mem _ member))
        (kept _ (foldl_mem_snapshots apply shared (batch item)))
      intro value member
      rw [List.flatMap_cons, snapshots_append, ← List.cons_append] at member
      rcases List.mem_append.mp member with early | late
      · exact kept value early
      · exact later value (List.mem_cons_of_mem _ late)

/-- After every write and before the next one there is an act that `reads`. The
trace starts with its first write: what it starts from is what was there by
then. -/
inductive Paced (reads : Act → Bool) : Trace Write Act → Prop where
  | nil : Paced reads []
  | cons (written : Write) (batch : List Act) (rest : Trace Write Act) :
      batch.any reads = true → Paced reads rest →
      Paced reads (.write written :: batch.map .act ++ rest)

def readings (apply : Shared → Write → Shared) (reads : Act → Bool)
    (shared : Shared) (trace : Trace Write Act) : List Shared :=
  (observed apply shared trace).filterMap fun (value, action) =>
    if reads action then some value else none

theorem readings_append (apply : Shared → Write → Shared) (reads : Act → Bool)
    (shared : Shared) (first second : Trace Write Act) :
    readings apply reads shared (first ++ second) =
      readings apply reads shared first ++
        readings apply reads ((writes first).foldl apply shared) second := by
  rw [readings, observed_append, List.filterMap_append]
  rfl

theorem readings_split (apply : Shared → Write → Shared) {reads : Act → Bool}
    (shared : Shared) (before after : Trace Write Act) {action : Act}
    (reading : reads action = true) :
    readings apply reads shared (before ++ .act action :: after) =
      readings apply reads shared before ++
        (writes before).foldl apply shared ::
          readings apply reads ((writes before).foldl apply shared) after := by
  rw [readings, observed_split, List.filterMap_append, List.filterMap_cons]
  simp only [reading, if_true]
  rfl

theorem forall_mem_readings (Invariant : Shared → Prop)
    {apply : Shared → Write → Shared} {reads : Act → Bool} {shared : Shared}
    {trace : Trace Write Act} (start : Invariant shared)
    (preserved : ∀ written ∈ writes trace, ∀ value, Invariant value →
      Invariant (apply value written)) :
    ∀ value ∈ readings apply reads shared trace, Invariant value := by
  induction trace generalizing shared with
  | nil => intro value member; cases member
  | cons event rest induction =>
      cases event with
      | write written =>
          have kept : Invariant (apply shared written) :=
            preserved written List.mem_cons_self shared start
          exact induction kept fun later member =>
            preserved later (List.mem_cons_of_mem written member)
      | act action =>
          have continued := induction start preserved
          intro value member
          rw [readings, observed, List.filterMap_cons] at member
          by_cases reading : reads action = true
          · simp only [reading, if_true] at member
            rcases List.mem_cons.mp member with rfl | later
            · exact start
            · exact continued value later
          · simp only [reading] at member
            exact continued value member

theorem mem_readings {apply : Shared → Write → Shared} {reads : Act → Bool}
    {shared value : Shared} {trace : Trace Write Act}
    (member : value ∈ readings apply reads shared trace) :
    value ∈ shared :: snapshots apply shared (writes trace) := by
  induction trace generalizing shared with
  | nil => cases member
  | cons event rest induction =>
      cases event with
      | write written => exact List.mem_cons_of_mem _ (induction member)
      | act action =>
          rw [readings, observed, List.filterMap_cons] at member
          by_cases reading : reads action = true
          · simp only [reading, if_true] at member
            rcases List.mem_cons.mp member with rfl | later
            · exact List.mem_cons_self
            · exact induction later
          · simp only [reading] at member
            exact induction member

theorem readings_acts (apply : Shared → Write → Shared) (reads : Act → Bool)
    (shared : Shared) (batch : List Act) :
    readings apply reads shared (batch.map .act : Trace Write Act) =
      List.replicate (batch.countP reads) shared := by
  induction batch with
  | nil => rfl
  | cons action rest induction =>
      change List.filterMap _ ((shared, action) ::
        observed apply shared (rest.map .act)) = _
      rw [List.filterMap_cons, ← readings, induction, List.countP_cons]
      by_cases reading : reads action = true
      · simp [reading, List.replicate_succ]
      · simp [reading]

theorem writes_acts (batch : List Act) :
    writes (batch.map .act : Trace Write Act) = [] := by
  induction batch with
  | nil => rfl
  | cons action rest induction => exact induction

/-- A reader that keeps up reads the value after every write, possibly several
times in a row, and so finds the same latest values as one reading of each
would. -/
theorem Paced.latest_readings {reads : Act → Bool} {trace : Trace Write Act}
    (paced : Paced reads trace) (apply : Shared → Write → Shared)
    (shared : Shared) (matching : Shared → Bool) :
    DirectMapped.latest matching (readings apply reads shared trace) =
      DirectMapped.latest matching
        (snapshots apply shared (writes trace)) := by
  induction paced generalizing shared with
  | nil => rfl
  | cons written batch rest someRead _ induction =>
      have positive : 0 < batch.countP reads := by
        rcases List.any_eq_true.mp someRead with ⟨action, member, reading⟩
        exact List.countP_pos_iff.mpr ⟨action, member, reading⟩
      have further := DirectMapped.latest_append matching
        [apply shared written]
        (snapshots apply (apply shared written) (writes rest))
      have performed : writes (.write written :: batch.map .act ++ rest) =
          written :: writes rest := by
        rw [List.cons_append, writes_write, writes_append, writes_acts]
        rfl
      calc
        DirectMapped.latest matching
            (readings apply reads shared
              (.write written :: batch.map .act ++ rest)) =
            DirectMapped.latest matching
              (readings apply reads (apply shared written)
                (batch.map .act ++ rest)) := rfl
        _ = DirectMapped.latest matching
              (apply shared written ::
                snapshots apply (apply shared written) (writes rest)) := by
          rw [readings_append, writes_acts, List.foldl_nil,
            DirectMapped.latest_append, induction, readings_acts,
            DirectMapped.latest_replicate _ _ positive]
          exact further.symm
        _ = _ := by rw [performed, snapshots]

/-! ## A writer that keeps a log -/

section Woven

variable {Effect : Type y} (written : Effect → Option Write)
  (during : List Effect → List Act)

/-- What the reader has done before the first effect of a log, between any two of
them and behind the last, woven into what the effects write. -/
def woven (before : List Effect) : List Effect → Trace Write Act
  | [] => (during before).map .act
  | effect :: rest =>
      (during before).map .act ++
        ((written effect).toList.map .write ++ woven (before ++ [effect]) rest)

theorem writes_woven (before log : List Effect) :
    writes (woven written during before log) = log.filterMap written := by
  induction log generalizing before with
  | nil => exact writes_acts _
  | cons effect rest induction =>
      rw [woven, writes_append, writes_acts, writes_append, writes_map_write,
        induction, List.filterMap_cons]
      cases written effect <;> rfl

theorem woven_concat (before log : List Effect) (effect : Effect) :
    woven written during before (log ++ [effect]) =
      woven written during before log ++
        ((written effect).toList.map .write ++
          (during (before ++ (log ++ [effect]))).map .act) := by
  induction log generalizing before with
  | nil => rfl
  | cons first rest induction =>
      rw [List.cons_append, woven, induction, woven, List.append_assoc,
        List.append_assoc, List.append_assoc, List.singleton_append]

theorem woven_paced {reads : Act → Bool}
    (served : ∀ before effect, (written effect).isSome = true →
      (during (before ++ [effect])).any reads = true)
    (before log : List Effect) :
    ∃ lead rest, woven written during before log =
        (during before ++ lead).map .act ++ rest ∧ Paced reads rest := by
  induction log generalizing before with
  | nil => exact ⟨[], [], by rw [woven]; simp, .nil⟩
  | cons effect rest induction =>
      rcases induction (before ++ [effect]) with ⟨lead, paced, isRest, keepsUp⟩
      rw [woven, isRest]
      cases isWrite : written effect with
      | none =>
          refine ⟨during (before ++ [effect]) ++ lead, paced, ?_, keepsUp⟩
          simp
      | some write =>
          have read := served before effect (by rw [isWrite]; rfl)
          have reads' : (during (before ++ [effect]) ++ lead).any reads = true := by
            rw [List.any_append, read, Bool.true_or]
          refine ⟨[], _, ?_, .cons write _ paced reads' keepsUp⟩
          simp

end Woven

end Interleaving
