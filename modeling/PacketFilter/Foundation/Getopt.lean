import Mathlib.Data.List.Basic

/-! # Command line options

`getopt` for options of one letter that all take an argument. Arguments that are
no options are passed over wherever they stand.
-/

namespace Getopt

abbrev Text := List Char

/-- What one call finds. The last two are both returned as `'?'`. -/
inductive Result where
  | option (name : Char) (optarg : Text)
  | unknown (name : Char)
  | missing (name : Char)
  deriving DecidableEq

def Result.isOption : Result → Bool
  | .option _ _ => true
  | .unknown _ => false
  | .missing _ => false

section Scan

variable (known : Char → Bool)

/-- The letters of one argument, and the option that takes the next argument as
its own, if the letters end with one. -/
def cluster : Text → List Result × Option Char
  | [] => ([], none)
  | name :: rest =>
      if known name then
        if rest = [] then ([], some name) else ([.option name rest], none)
      else
        let (results, waiting) := cluster rest
        (.unknown name :: results, waiting)

def isOption (arg : Text) : Bool := arg.head? = some '-' && arg ≠ ['-']

def scan : Option Char → List Text → List Result
  | some name, [] => [.missing name]
  | some name, optarg :: rest => .option name optarg :: scan none rest
  | none, [] => []
  | none, arg :: rest =>
      if arg = ['-', '-'] then []
      else if isOption arg then
        let (results, waiting) := cluster known arg.tail
        results ++ scan waiting rest
      else scan none rest

def getopt (args : List Text) : List Result := scan known none args

end Scan

/-! ## Command lines -/

inductive Item where
  | attached (name : Char) (optarg : Text)
  | separate (name : Char) (optarg : Text)
  | operand (text : Text)
  deriving DecidableEq

namespace Item

def spell : Item → List Text
  | attached name optarg => ['-' :: name :: optarg]
  | separate name optarg => [['-', name], optarg]
  | operand text => [text]

def setting : Item → Option (Char × Text)
  | attached name optarg => some (name, optarg)
  | separate name optarg => some (name, optarg)
  | operand _ => none

def Fits (known : Char → Bool) : Item → Prop
  | attached name optarg => known name = true ∧ optarg ≠ []
  | separate name _ => known name = true
  | operand text => isOption text = false

end Item

inductive Ending where
  | finished
  | terminated (operands : List Text)
  | unknown (name : Char) (letters : Text) (rest : List Text)
  | missing (name : Char)
  deriving DecidableEq

namespace Ending

def spell : Ending → List Text
  | finished => []
  | terminated operands => ['-', '-'] :: operands
  | unknown name letters rest => ('-' :: name :: letters) :: rest
  | missing name => [['-', name]]

def Fits (known : Char → Bool) : Ending → Prop
  | finished => True
  | terminated _ => True
  | unknown name letters _ =>
      known name = false ∧ ¬ (name = '-' ∧ letters = [])
  | missing name => known name = true

def Regular : Ending → Prop
  | finished => True
  | terminated _ => True
  | unknown _ _ _ => False
  | missing _ => False

instance (ending : Ending) : Decidable ending.Regular :=
  match ending with
  | finished => inferInstanceAs (Decidable True)
  | terminated _ => inferInstanceAs (Decidable True)
  | unknown _ _ _ => inferInstanceAs (Decidable False)
  | missing _ => inferInstanceAs (Decidable False)

end Ending

/-- A command line taken apart. No option is called `-`. -/
structure Line (known : Char → Bool) where
  items : List Item
  ending : Ending
  itemsFit : ∀ item ∈ items, item.Fits known
  endingFits : ending.Fits known

namespace Line

variable {known : Char → Bool}

def spell (line : Line known) : List Text :=
  line.items.flatMap Item.spell ++ line.ending.spell

def settings (line : Line known) : List (Char × Text) :=
  line.items.filterMap Item.setting

theorem known_of_mem_settings {line : Line known} {setting : Char × Text}
    (member : setting ∈ line.settings) : known setting.1 = true := by
  rcases List.mem_filterMap.mp member with ⟨item, listed, found⟩
  have fits := line.itemsFit item listed
  cases item with
  | attached name optarg =>
      cases found
      exact fits.1
  | separate name optarg =>
      cases found
      exact fits
  | operand text => cases found

theorem exists_arg_of_mem_settings {line : Line known} {name : Char}
    {optarg : Text} (member : (name, optarg) ∈ line.settings) :
    ∃ arg ∈ line.spell, ∀ char ∈ optarg, char ∈ arg := by
  rcases List.mem_filterMap.mp member with ⟨item, listed, found⟩
  have spelled : ∀ arg ∈ item.spell, arg ∈ line.spell := fun arg part =>
    List.mem_append_left _ (List.mem_flatMap.mpr ⟨item, listed, part⟩)
  cases item with
  | attached _ _ =>
      cases found
      refine ⟨_, spelled _ List.mem_cons_self, fun char within => ?_⟩
      exact List.mem_cons_of_mem _ (List.mem_cons_of_mem _ within)
  | separate _ _ =>
      cases found
      refine ⟨optarg, spelled _ ?_, fun _ within => within⟩
      exact List.mem_cons_of_mem _ List.mem_cons_self
  | operand text => cases found

end Line

/-! ## What is found on a command line -/

section Found

variable {known : Char → Bool} (noDash : known '-' = false)
include noDash

omit noDash in
theorem scan_attached {name : Char} {optarg : Text}
    (isKnown : known name = true) (nonempty : optarg ≠ []) (rest : List Text) :
    scan known none (('-' :: name :: optarg) :: rest) =
      .option name optarg :: scan known none rest := by
  have notEnd : '-' :: name :: optarg ≠ ['-', '-'] := by
    intro same
    cases same
    exact nonempty rfl
  rw [scan, if_neg notEnd, if_pos (by simp [isOption]), List.tail_cons, cluster,
    if_pos isKnown, if_neg nonempty]
  rfl

theorem scan_waiting {name : Char} (isKnown : known name = true)
    (rest : List Text) :
    scan known none (['-', name] :: rest) = scan known (some name) rest := by
  have notDash : name ≠ '-' := by
    rintro rfl
    rw [noDash] at isKnown
    cases isKnown
  have notEnd : ['-', name] ≠ ['-', '-'] := by
    intro same
    exact notDash (by simpa using same)
  rw [scan, if_neg notEnd, if_pos (by simp [isOption]), List.tail_cons, cluster,
    if_pos isKnown, if_pos rfl]
  rfl

theorem scan_item {item : Item} (fits : item.Fits known) (rest : List Text) :
    scan known none (item.spell ++ rest) =
      (item.setting.map fun (name, optarg) =>
        Result.option name optarg).toList ++ scan known none rest := by
  cases item with
  | attached name optarg => exact scan_attached fits.1 fits.2 rest
  | separate name optarg =>
      have spelled : (Item.separate name optarg).spell ++ rest =
          ['-', name] :: optarg :: rest := rfl
      rw [spelled, scan_waiting noDash fits, scan]
      rfl
  | operand text =>
      have notOption : isOption text = false := fits
      have notEnd : text ≠ ['-', '-'] := by
        rintro rfl
        exact absurd notOption (by decide)
      have spelled : (Item.operand text).spell ++ rest = text :: rest := rfl
      rw [spelled, scan, if_neg notEnd, notOption, if_neg Bool.false_ne_true]
      rfl

theorem scan_items {items : List Item} (fit : ∀ item ∈ items, item.Fits known)
    (rest : List Text) :
    scan known none (items.flatMap Item.spell ++ rest) =
      (items.filterMap Item.setting).map
          (fun (name, optarg) => Result.option name optarg) ++
        scan known none rest := by
  induction items with
  | nil => rfl
  | cons item others induction =>
      have fitOthers : ∀ other ∈ others, other.Fits known :=
        fun other member => fit other (List.mem_cons_of_mem item member)
      rw [List.flatMap_cons, List.append_assoc,
        scan_item noDash (fit item List.mem_cons_self), induction fitOthers]
      cases item <;> rfl

/-- A regular ending yields nothing, another one a failure before anything
else. -/
theorem scan_ending {ending : Ending} (fits : ending.Fits known) :
    (ending.Regular ∧ scan known none ending.spell = []) ∨
      (¬ ending.Regular ∧ ∃ failure rest,
        scan known none ending.spell = failure :: rest ∧
          failure.isOption = false) := by
  cases ending with
  | finished => exact .inl ⟨trivial, rfl⟩
  | terminated operands => exact .inl ⟨trivial, by simp [Ending.spell, scan]⟩
  | missing name =>
      refine .inr ⟨id, .missing name, [], ?_, rfl⟩
      have waiting := scan_waiting noDash fits []
      rw [scan] at waiting
      exact waiting
  | unknown name letters rest =>
      have notEnd : '-' :: name :: letters ≠ ['-', '-'] := by
        intro same
        exact fits.2 (by simpa using same)
      have found : scan known none (Ending.unknown name letters rest).spell =
          .unknown name :: ((cluster known letters).1 ++
            scan known (cluster known letters).2 rest) := by
        rw [Ending.spell, scan, if_neg notEnd, if_pos (by simp [isOption]),
          List.tail_cons, cluster, fits.1, if_neg Bool.false_ne_true]
        rfl
      exact .inr ⟨id, .unknown name, _, found, rfl⟩

omit noDash in
theorem exists_of_isOption {arg : Text} (option : isOption arg = true) :
    ∃ name letters, arg = '-' :: name :: letters := by
  cases arg with
  | nil => cases option
  | cons dash more =>
      have shape : dash = '-' ∧ more ≠ [] := by
        simp [isOption] at option
        exact ⟨option.1, option.2.resolve_left (not_not.mpr option.1)⟩
      cases more with
      | nil => exact absurd rfl shape.2
      | cons name letters => exact ⟨name, letters, by rw [shape.1]⟩

omit noDash in
theorem exists_line_cons_item (item : Item) (fits : item.Fits known)
    {rest : List Text} (found : ∃ line : Line known, rest = line.spell) :
    ∃ line : Line known, item.spell ++ rest = line.spell := by
  rcases found with ⟨line, rfl⟩
  refine ⟨⟨item :: line.items, line.ending, ?_, line.endingFits⟩, ?_⟩
  · intro other member
    rcases List.mem_cons.mp member with rfl | later
    · exact fits
    · exact line.itemsFit other later
  · exact (List.append_assoc _ _ _).symm

omit noDash in
theorem exists_line (args : List Text) :
    ∃ line : Line known, args = line.spell := by
  induction isLength : args.length using Nat.strongRecOn generalizing args with
  | _ length induction =>
      have shorter : ∀ rest : List Text, rest.length < length →
          ∃ line : Line known, rest = line.spell :=
        fun rest less => induction _ less rest rfl
      cases args with
      | nil => exact ⟨⟨[], .finished, by simp, trivial⟩, rfl⟩
      | cons arg rest =>
          rw [List.length_cons] at isLength
          have atRest := shorter rest (by omega)
          by_cases isEnd : arg = ['-', '-']
          · subst isEnd
            exact ⟨⟨[], .terminated rest, by simp, trivial⟩, rfl⟩
          · cases option : isOption arg with
            | false => exact exists_line_cons_item (.operand arg) option atRest
            | true =>
                rcases exists_of_isOption option with ⟨name, letters, rfl⟩
                have notEnd : ¬ (name = '-' ∧ letters = []) := by
                  rintro ⟨rfl, rfl⟩
                  exact isEnd rfl
                cases isKnown : known name with
                | false =>
                    exact ⟨⟨[], .unknown name letters rest, by simp,
                      isKnown, notEnd⟩, rfl⟩
                | true =>
                    by_cases separate : letters = []
                    · subst separate
                      cases rest with
                      | nil =>
                          exact ⟨⟨[], .missing name, by simp, isKnown⟩, rfl⟩
                      | cons optarg others =>
                          rw [List.length_cons] at isLength
                          have atOthers := shorter others (by omega)
                          exact exists_line_cons_item (.separate name optarg)
                            isKnown atOthers
                    · exact exists_line_cons_item (.attached name letters)
                        ⟨isKnown, separate⟩ atRest

/-- The options of a command line are found in their order, and nothing behind
them if it ends regularly. -/
theorem getopt_spell (line : Line known) :
    (line.ending.Regular ∧ getopt known line.spell =
        line.settings.map fun (name, optarg) => .option name optarg) ∨
      (¬ line.ending.Regular ∧ ∃ failure rest,
        getopt known line.spell =
            (line.settings.map fun (name, optarg) => .option name optarg) ++
              failure :: rest ∧
          failure.isOption = false) := by
  have items := scan_items noDash line.itemsFit line.ending.spell
  rcases scan_ending noDash line.endingFits with
    ⟨regular, nothing⟩ | ⟨irregular, failure, rest, failed, notOption⟩
  · rw [nothing, List.append_nil] at items
    exact .inl ⟨regular, items⟩
  · rw [failed] at items
    exact .inr ⟨irregular, failure, rest, items, notOption⟩

end Found

end Getopt
