import PacketFilter.Foundation.Mealy
import PacketFilter.Foundation.Framing
import PacketFilter.Foundation.DirectMapped

/-! # Filters that pass frames by rule

A frame filter consumes rules and items in any order. A rule opens or shuts one
slot; an item belongs to the frame under way, and the first item of the frame
names the slot that decides whether the item passes. This file says what such a
filter is for, gives it a machine, and gives the rule by which another machine
is shown to implement it.
-/

structure FrameFilter (Input : Type u) (Rule : Type v) (Item : Type w)
    (Slot : Type x) where
  view : Input → Rule ⊕ Item
  isLast : Item → Bool
  slotOf : Rule → Slot
  opens : Rule → Bool
  slotOfFirst : Item → Option Slot

namespace FrameFilter

variable {Input : Type u} {Rule : Type v} {Item : Type w} {Slot : Type x}

/-! ## Histories -/

def rules (filter : FrameFilter Input Rule Item Slot) (history : List Input) :
    List Rule :=
  history.filterMap fun input => (filter.view input).getLeft?

def items (filter : FrameFilter Input Rule Item Slot) (history : List Input) :
    List Item :=
  history.filterMap fun input => (filter.view input).getRight?

/-- One consumed item, with the input that carried it and the inputs that
preceded it in the run. -/
structure Arrival (Input : Type u) (Item : Type w) where
  history : List Input
  input : Input
  item : Item
  deriving DecidableEq

def arrivalsFrom (filter : FrameFilter Input Rule Item Slot)
    (history : List Input) : List Input → List (Arrival Input Item)
  | [] => []
  | input :: rest =>
      let later := filter.arrivalsFrom (history ++ [input]) rest
      match filter.view input with
      | .inl _ => later
      | .inr item => ⟨history, input, item⟩ :: later

def arrivals (filter : FrameFilter Input Rule Item Slot) (run : List Input) :
    List (Arrival Input Item) :=
  filter.arrivalsFrom [] run

theorem arrivalsFrom_append (filter : FrameFilter Input Rule Item Slot)
    (history first second : List Input) :
    filter.arrivalsFrom history (first ++ second) =
      filter.arrivalsFrom history first ++
        filter.arrivalsFrom (history ++ first) second := by
  induction first generalizing history with
  | nil => simp [arrivalsFrom]
  | cons input rest induction =>
      simp only [List.cons_append, arrivalsFrom, induction]
      cases filter.view input <;> simp

theorem arrivals_concat (filter : FrameFilter Input Rule Item Slot)
    (run : List Input) (input : Input) :
    filter.arrivals (run ++ [input]) =
      filter.arrivals run ++
        match filter.view input with
        | .inl _ => []
        | .inr item => [⟨run, input, item⟩] := by
  rw [arrivals, arrivalsFrom_append, List.nil_append, arrivals]
  cases shown : filter.view input <;> simp [arrivalsFrom, shown]

theorem items_eq_map_arrivals (filter : FrameFilter Input Rule Item Slot)
    (run : List Input) :
    filter.items run = (filter.arrivals run).map Arrival.item := by
  induction run using List.reverseRecOn with
  | nil => rfl
  | append_singleton run input induction =>
      rw [items, List.filterMap_append, ← items, induction, arrivals_concat,
        List.map_append]
      cases shown : filter.view input <;> simp [shown]

theorem arrival_of_split (filter : FrameFilter Input Rule Item Slot)
    {run : List Input} {before after : List (Arrival Input Item)}
    {arrival : Arrival Input Item}
    (split : filter.arrivals run = before ++ arrival :: after) :
    before = filter.arrivals arrival.history ∧
      filter.view arrival.input = .inr arrival.item ∧
      ∃ rest, run = arrival.history ++ arrival.input :: rest := by
  induction run using List.reverseRecOn generalizing after with
  | nil => simp [arrivals, arrivalsFrom] at split
  | append_singleton run input induction =>
      have earlier : ∀ after,
          filter.arrivals run = before ++ arrival :: after →
          before = filter.arrivals arrival.history ∧
            filter.view arrival.input = .inr arrival.item ∧
            ∃ rest, run ++ [input] =
              arrival.history ++ arrival.input :: rest := by
        intro after split
        rcases induction split with ⟨isHistory, shown, rest, found⟩
        exact ⟨isHistory, shown, rest ++ [input], by simp [found]⟩
      rw [arrivals_concat] at split
      cases shown : filter.view input with
      | inl rule =>
          rw [shown] at split
          exact earlier after (by simpa using split)
      | inr item =>
          rw [shown] at split
          rcases List.eq_nil_or_concat after with rfl | ⟨after, last, rfl⟩
          · rcases List.append_inj' split rfl with ⟨rfl, isArrival⟩
            rcases (List.singleton_inj.mp isArrival).symm with rfl
            exact ⟨rfl, shown, [], rfl⟩
          · rw [List.concat_eq_append, ← List.cons_append,
              ← List.append_assoc] at split
            exact earlier after (List.append_inj' split rfl).1

/-! ## Purpose -/

section Purpose

variable [DecidableEq Slot]

/-- Whether the latest rule for a slot opened it. A slot no rule named is
shut. -/
def slotOpen (filter : FrameFilter Input Rule Item Slot)
    (history : List Input) (slot : Slot) : Bool :=
  (DirectMapped.latest (fun rule => decide (filter.slotOf rule = slot))
    (filter.rules history)).any filter.opens

def keeps (filter : FrameFilter Input Rule Item Slot) (first : Item)
    (history : List Input) : Bool :=
  (filter.slotOfFirst first).any (filter.slotOpen history)

def frames (filter : FrameFilter Input Rule Item Slot) (run : List Input) :
    List (List (Arrival Input Item)) :=
  Framing.frames (fun arrival => filter.isLast arrival.item)
    (filter.arrivals run)

/-- The items that pass, computed from the whole run without any state. -/
def passed (filter : FrameFilter Input Rule Item Slot) (run : List Input) :
    List Item :=
  (filter.frames run).flatMap <| Framing.flatMapFrame fun first arrival =>
    if filter.keeps first.item arrival.history then [arrival.item] else []

end Purpose

/-! ## The machine -/

structure State (Item : Type w) (Slot : Type x) where
  isOpen : Slot → Bool
  current : List Item

def initial : State Item Slot where
  isOpen := fun _ => false
  current := []

variable [DecidableEq Slot]

def machine (filter : FrameFilter Input Rule Item Slot) :
    Mealy (State Item Slot) Input (List Item) where
  step state input :=
    match filter.view input with
    | .inl rule =>
        ({ state with
            isOpen := DirectMapped.install filter.slotOf filter.opens
              state.isOpen rule }, [])
    | .inr item =>
        ({ state with
            current := if filter.isLast item then []
              else state.current ++ [item] },
          if (filter.slotOfFirst (state.current.headD item)).any state.isOpen
          then [item] else [])

theorem machine_step_rule (filter : FrameFilter Input Rule Item Slot)
    (state : State Item Slot) {input : Input} {rule : Rule}
    (shown : filter.view input = .inl rule) :
    filter.machine.step state input =
      ({ state with
          isOpen := DirectMapped.install filter.slotOf filter.opens
            state.isOpen rule }, []) := by
  simp only [machine, shown]

theorem machine_step_item (filter : FrameFilter Input Rule Item Slot)
    (state : State Item Slot) {input : Input} {item : Item}
    (shown : filter.view input = .inr item) :
    filter.machine.step state input =
      ({ state with
          current := if filter.isLast item then []
            else state.current ++ [item] },
        if (filter.slotOfFirst (state.current.headD item)).any state.isOpen
        then [item] else []) := by
  simp only [machine, shown]

theorem slotOpen_concat_rule (filter : FrameFilter Input Rule Item Slot)
    (history : List Input) {input : Input} {rule : Rule}
    (shown : filter.view input = .inl rule) :
    filter.slotOpen (history ++ [input]) =
      DirectMapped.install filter.slotOf filter.opens
        (filter.slotOpen history) rule := by
  funext slot
  have appended : filter.rules (history ++ [input]) =
      filter.rules history ++ [rule] := by
    simp [rules, shown]
  rw [slotOpen, appended, DirectMapped.latest_concat,
    DirectMapped.install_apply]
  by_cases same : filter.slotOf rule = slot <;> simp [same, slotOpen]

theorem slotOpen_concat_item (filter : FrameFilter Input Rule Item Slot)
    (history : List Input) {input : Input} {item : Item}
    (shown : filter.view input = .inr item) :
    filter.slotOpen (history ++ [input]) = filter.slotOpen history := by
  funext slot
  simp [slotOpen, rules, shown]

theorem machine_run (filter : FrameFilter Input Rule Item Slot)
    (history : List Input) :
    filter.machine.run initial history =
      { isOpen := filter.slotOpen history
        current :=
          Framing.openFrame filter.isLast (filter.items history) } := by
  induction history using List.reverseRecOn with
  | nil => rfl
  | append_singleton history input induction =>
      rw [Mealy.run_concat, induction]
      cases shown : filter.view input with
      | inl rule =>
          rw [filter.machine_step_rule _ shown,
            filter.slotOpen_concat_rule history shown]
          simp [items, shown]
      | inr item =>
          rw [filter.machine_step_item _ shown,
            filter.slotOpen_concat_item history shown]
          simp [items, shown, Framing.openFrame_concat]

theorem machine_output (filter : FrameFilter Input Rule Item Slot)
    {history : List Input} {input : Input} {item : Item}
    (shown : filter.view input = .inr item) :
    (filter.machine.step (filter.machine.run initial history) input).2 =
      if filter.keeps
          ((Framing.openFrame filter.isLast (filter.items history)).headD item)
          history then [item] else [] := by
  rw [machine_run, filter.machine_step_item _ shown, keeps]

omit [DecidableEq Slot] in
theorem openFrame_headD (filter : FrameFilter Input Rule Item Slot)
    (history : List Input) (arrival : Arrival Input Item) :
    (Framing.openFrame filter.isLast (filter.items history)).headD
        arrival.item =
      ((Framing.openFrame (fun arrival => filter.isLast arrival.item)
        (filter.arrivals history)).headD arrival).item := by
  rw [items_eq_map_arrivals, Framing.openFrame_map]
  cases Framing.openFrame (fun arrival => filter.isLast arrival.item)
    (filter.arrivals history) <;> rfl

theorem machine_outputs (filter : FrameFilter Input Rule Item Slot)
    (run : List Input) :
    (filter.machine.outputs initial run).flatten = filter.passed run := by
  induction run using List.reverseRecOn with
  | nil => rfl
  | append_singleton run input induction =>
      rw [Mealy.outputs_concat, List.flatten_append, induction, passed, passed,
        frames, frames, arrivals_concat]
      cases shown : filter.view input with
      | inl rule => simp [machine, shown]
      | inr item =>
          simp only [List.flatten_singleton]
          rw [Framing.frames_flatMap_concat, machine_output filter shown,
            filter.openFrame_headD run ⟨run, input, item⟩]

omit [DecidableEq Slot] in
theorem found_of_mem_frames (filter : FrameFilter Input Rule Item Slot)
    {run : List Input} {frame : List (Arrival Input Item)}
    (member : frame ∈ filter.frames run) {arrival : Arrival Input Item}
    (inFrame : arrival ∈ frame) :
    filter.view arrival.input = .inr arrival.item ∧
      ∃ rest, run = arrival.history ++ arrival.input :: rest := by
  have arrived : arrival ∈ filter.arrivals run := by
    rw [← Framing.frames_flatten (fun arrival => filter.isLast arrival.item)
      (filter.arrivals run)]
    exact List.mem_flatten.mpr ⟨frame, member, inFrame⟩
  rcases List.append_of_mem arrived with ⟨before, after, split⟩
  exact (filter.arrival_of_split split).2

omit [DecidableEq Slot] in
/-- An input that carries an item arrives in a frame that starts with the part
of it that was open. -/
theorem exists_frame_of_input (filter : FrameFilter Input Rule Item Slot)
    {run before after : List Input} {input : Input} {item : Item}
    (split : run = before ++ input :: after)
    (shown : filter.view input = .inr item) :
    ∃ frame ∈ filter.frames run,
      Framing.openFrame (fun arrival => filter.isLast arrival.item)
          (filter.arrivals before) ++ [⟨before, input, item⟩] <+: frame := by
  have arrived : filter.arrivals run =
      filter.arrivals before ++ ⟨before, input, item⟩ ::
        filter.arrivalsFrom (before ++ [input]) after := by
    rw [split, arrivals, arrivalsFrom_append]
    simp [arrivalsFrom, shown, arrivals]
  exact Framing.exists_frame_of_split
    (fun arrival => filter.isLast arrival.item) arrived

theorem current_headD_of_mem_frames
    (filter : FrameFilter Input Rule Item Slot) (run : List Input) :
    ∀ frame ∈ filter.frames run, ∀ first, frame.head? = some first →
      ∀ arrival ∈ frame,
        (filter.machine.run initial arrival.history).current.headD
          arrival.item = first.item := by
  apply Framing.forall_mem_frames
    (fun arrival : Arrival Input Item => filter.isLast arrival.item)
    fun first arrival =>
      (filter.machine.run initial arrival.history).current.headD
        arrival.item = first.item
  intro before arrival after split first isFirst
  rcases filter.arrival_of_split split with ⟨isHistory, -, -⟩
  have isHead : first = (Framing.openFrame
      (fun arrival => filter.isLast arrival.item) before).headD arrival := by
    cases shape : Framing.openFrame
      (fun arrival => filter.isLast arrival.item) before <;>
      simp [shape] at isFirst <;> simp [isFirst]
  rw [machine_run, filter.openFrame_headD, ← isHistory, isHead]

/-- Inside a frame the machine's outputs depend on the first arrival of the
frame and on the rules before each arrival. -/
theorem machine_output_of_mem_frames
    (filter : FrameFilter Input Rule Item Slot) (run : List Input) :
    ∀ frame ∈ filter.frames run, ∀ first, frame.head? = some first →
      ∀ arrival ∈ frame,
        (filter.machine.step (filter.machine.run initial arrival.history)
            arrival.input).2 =
          if filter.keeps first.item arrival.history then [arrival.item]
          else [] := by
  intro frame member first isFirst arrival inFrame
  have held := filter.current_headD_of_mem_frames run frame member first
    isFirst arrival inFrame
  rw [machine_run] at held
  rw [machine_output filter (filter.found_of_mem_frames member inFrame).1, held]

/-! ## Implementations -/

def FramesWithin (filter : FrameFilter Input Rule Item Slot) (limit : Nat)
    (run : List Input) : Prop :=
  ∀ frame ∈ filter.frames run, frame.length ≤ limit

/-- A machine that follows the filter's machine as long as no frame grows
beyond `limit` items. -/
structure Implementation (filter : FrameFilter Input Rule Item Slot)
    (concrete : Mealy State' Input (List Item)) (start : State')
    (limit : Nat) where
  Related : State' → State Item Slot → Prop
  related_start : Related start initial
  step : ∀ state abstract input, Related state abstract →
    (∀ item, filter.view input = .inr item → abstract.current.length < limit) →
    Related (concrete.step state input).1
        (filter.machine.step abstract input).1 ∧
      (concrete.step state input).2 = (filter.machine.step abstract input).2

theorem current_length_lt (filter : FrameFilter Input Rule Item Slot)
    {limit : Nat} {run : List Input} (within : filter.FramesWithin limit run)
    {before after : List Input} {input : Input} {item : Item}
    (split : run = before ++ input :: after)
    (shown : filter.view input = .inr item) :
    (filter.machine.run initial before).current.length < limit := by
  rcases filter.exists_frame_of_input split shown
    with ⟨frame, member, leads⟩
  have bounded := within frame member
  have shorter := leads.length_le
  rw [machine_run, items_eq_map_arrivals, Framing.openFrame_map,
    List.length_map]
  rw [List.length_append, List.length_singleton] at shorter
  omega

theorem guarded_of_framesWithin (filter : FrameFilter Input Rule Item Slot)
    {limit : Nat} {run : List Input}
    (within : filter.FramesWithin limit run) :
    filter.machine.Guarded
      (fun state input => ∀ item, filter.view input = .inr item →
        state.current.length < limit) initial run :=
  filter.machine.guarded_of_splits _ _ _ fun _ _ _ split _ shown =>
    filter.current_length_lt within split shown

namespace Implementation

variable {State' : Type y} {filter : FrameFilter Input Rule Item Slot}
  {concrete : Mealy State' Input (List Item)} {start : State'} {limit : Nat}

theorem outputs_flatten
    (implementation : Implementation filter concrete start limit)
    {run : List Input} (within : filter.FramesWithin limit run) :
    (concrete.outputs start run).flatten = filter.passed run := by
  rw [← machine_outputs]
  exact congrArg List.flatten (Mealy.simulation concrete filter.machine
    implementation.Related _ implementation.step implementation.related_start
    (filter.guarded_of_framesWithin within)).2

theorem related_of_mem_frames
    (implementation : Implementation filter concrete start limit)
    {run : List Input} (within : filter.FramesWithin limit run)
    {frame : List (Arrival Input Item)} (member : frame ∈ filter.frames run)
    {arrival : Arrival Input Item} (inFrame : arrival ∈ frame) :
    implementation.Related (concrete.run start arrival.history)
        (filter.machine.run initial arrival.history) ∧
      (filter.machine.run initial arrival.history).current.length < limit := by
  rcases filter.found_of_mem_frames member inFrame with ⟨shown, rest, found⟩
  have guarded := filter.guarded_of_framesWithin within
  rw [found, Mealy.guarded_append] at guarded
  have related := (Mealy.simulation concrete filter.machine
    implementation.Related _ implementation.step implementation.related_start
    guarded.1).1
  exact ⟨related, guarded.2.1 arrival.item shown⟩

/-- Inside a frame an implementation answers as the first arrival of the
frame and the rules before each arrival demand. -/
theorem output_of_mem_frames
    (implementation : Implementation filter concrete start limit)
    {run : List Input} (within : filter.FramesWithin limit run) :
    ∀ frame ∈ filter.frames run, ∀ first, frame.head? = some first →
      ∀ arrival ∈ frame,
        (concrete.step (concrete.run start arrival.history)
            arrival.input).2 =
          if filter.keeps first.item arrival.history then [arrival.item]
          else [] := by
  intro frame member first isFirst arrival inFrame
  rw [← filter.machine_output_of_mem_frames run frame member first isFirst
    arrival inFrame]
  rcases implementation.related_of_mem_frames within member inFrame
    with ⟨related, short⟩
  exact (implementation.step _ _ arrival.input related fun _ _ => short).2

end Implementation

end FrameFilter
