import PacketFilter.Foundation.Tokens
import PacketFilter.Software.Arguments

/-! # Command lines

What a command line means, and which command lines the program refuses.
-/

namespace PacketFilter.Contracts.CommandLine

open CText Software

abbrev Setting := Char × List Char

def latestText (name : Char) (settings : List Setting) : Option (List Char) :=
  (DirectMapped.latest (fun setting => setting.1 = name) settings).map Prod.snd

def latestNumber (name : Char) (default : Int) (settings : List Setting) : Int :=
  ((latestText name settings).bind fun text =>
    (stoi text).toOption).getD default

def filtersOf (setting : Setting) : List (List Char) :=
  if setting.1 = 'f' then Splitting.pieces ',' [] setting.2 else []

/-- The last option of a name counts, except that filters add up. -/
def meaning (settings : List Setting) : Arguments where
  dpdkConfig := latestText 'c' settings
  numThreads := BitVec.ofInt 16 (latestNumber 't' 1 settings)
  duration := BitVec.ofInt 32 (latestNumber 'd' 10 settings)
  filterList := settings.flatMap filtersOf

def conversionError (setting : Setting) : Option ConversionError :=
  if setting.1 = 't' ∨ setting.1 = 'd' then
    match stoi setting.2 with
    | .ok _ => none
    | .error error => some error
  else none

def outcome (line : Getopt.Line Arguments.known) :
    Except ArgumentFailure Arguments :=
  match line.settings.findSome? conversionError with
  | some error => .error (.exception error)
  | none =>
      if line.ending.Regular then
        if latestText 'c' line.settings = none then
          .error Arguments.configMissing
        else .ok (meaning line.settings)
      else .error (Arguments.unknownOption '?')

/-! ## The loop over the options -/

theorem latestText_concat (name : Char) (settings : List Setting)
    (setting : Setting) :
    latestText name (settings ++ [setting]) =
      if setting.1 = name then some setting.2
      else latestText name settings := by
  rw [latestText, DirectMapped.latest_concat]
  by_cases named : setting.1 = name
  · rw [if_pos (decide_eq_true named), if_pos named]
    rfl
  · rw [if_neg (by simpa using named), if_neg named]
    rfl

theorem latestNumber_concat (name : Char) (default : Int)
    (settings : List Setting) (setting : Setting) :
    latestNumber name default (settings ++ [setting]) =
      if setting.1 = name then (stoi setting.2).toOption.getD default
      else latestNumber name default settings := by
  rw [latestNumber, latestText_concat]
  by_cases named : setting.1 = name
  · rw [if_pos named, if_pos named]
    rfl
  · rw [if_neg named, if_neg named]
    rfl

theorem meaning_nil : meaning [] = Arguments.initial := by decide

theorem set_meaning (settings : List Setting) {setting : Setting}
    (known : Arguments.known setting.1 = true) :
    (meaning settings).set setting.1 setting.2 =
      match conversionError setting with
      | some error => .error (.exception error)
      | none => .ok (meaning (settings ++ [setting])) := by
  rcases setting with ⟨name, optarg⟩
  simp only [Arguments.known, Bool.or_eq_true, decide_eq_true_eq] at known
  rcases known with ((rfl | rfl) | rfl) | rfl
  · simp [Arguments.set, conversionError, meaning, latestText_concat,
      latestNumber_concat, filtersOf]
  · cases read : stoi optarg <;>
      simp [Arguments.set, Arguments.number, conversionError, meaning,
        latestText_concat, latestNumber_concat, filtersOf, read, Except.toOption,
        bind, Except.bind, pure, Except.pure]
  · cases read : stoi optarg <;>
      simp [Arguments.set, Arguments.number, conversionError, meaning,
        latestText_concat, latestNumber_concat, filtersOf, read, Except.toOption,
        bind, Except.bind, pure, Except.pure]
  · simp [Arguments.set, conversionError, meaning, latestText_concat,
      latestNumber_concat, filtersOf, Arguments.filterTokens]

def found (settings : List Setting) : List Getopt.Result :=
  settings.map fun (name, optarg) => .option name optarg

/-- The loop over options gives their meaning, or ends at the first conversion
that fails. The induction adds an option at the end. -/
theorem foldlM_found (settings : List Setting)
    (known : ∀ setting ∈ settings, Arguments.known setting.1 = true) :
    (found settings).foldlM Arguments.accept Arguments.initial =
      match settings.findSome? conversionError with
      | some error => .error (.exception error)
      | none => .ok (meaning settings) := by
  induction settings using List.reverseRecOn with
  | nil => rw [meaning_nil]; rfl
  | append_singleton earlier setting induction =>
      have knownEarlier : ∀ other ∈ earlier, Arguments.known other.1 = true :=
        fun other member => known other (List.mem_append_left _ member)
      have knownLast : Arguments.known setting.1 = true :=
        known setting (List.mem_append_right _ List.mem_cons_self)
      have split : found (earlier ++ [setting]) =
          found earlier ++ [.option setting.1 setting.2] :=
        List.map_append
      rw [split, List.foldlM_append, induction knownEarlier,
        List.findSome?_append]
      cases earlier.findSome? conversionError with
      | some error => rfl
      | none =>
          have step := set_meaning earlier knownLast
          change (meaning earlier).set setting.1 setting.2 >>= pure = _
          rw [bind_pure, step]
          cases failed : conversionError setting <;>
            simp [failed]

/-- What `getopt` cannot make sense of ends the loop. -/
theorem accept_of_not_isOption {result : Getopt.Result}
    (failure : result.isOption = false) (arguments : Arguments) :
    arguments.accept result = .error (Arguments.unknownOption '?') := by
  cases result with
  | option name optarg => cases failure
  | unknown name => rfl
  | missing name => rfl

theorem parseArgs_spell (line : Getopt.Line Arguments.known) :
    Arguments.parseArgs line.spell = outcome line := by
  have loop := foldlM_found line.settings fun _ member =>
    Getopt.Line.known_of_mem_settings member
  rw [Arguments.parseArgs, outcome]
  rcases Getopt.getopt_spell Arguments.known_dash line with
    ⟨regular, results⟩ | ⟨irregular, failure, rest, results, notOption⟩
  · rw [results, ← found, loop]
    cases line.settings.findSome? conversionError with
    | some error => rfl
    | none =>
        simp only [if_pos regular]
        rfl
  · rw [results, ← found, List.foldlM_append, loop]
    cases line.settings.findSome? conversionError with
    | some error => rfl
    | none =>
        have stopped : (failure :: rest).foldlM Arguments.accept
            (meaning line.settings) =
              .error (Arguments.unknownOption '?') := by
          rw [List.foldlM_cons, accept_of_not_isOption notOption]
          rfl
        simp only [if_neg irregular]
        change (failure :: rest).foldlM Arguments.accept
          (meaning line.settings) >>= _ = _
        rw [stopped]
        rfl

/-- Every command line is spelled from options, operands and an ending, and the
program takes from it what they mean. -/
theorem parseArgs_outcome :
    (∀ line : Getopt.Line Arguments.known,
        Arguments.parseArgs line.spell = outcome line) ∧
      ∀ argv, ∃ line : Getopt.Line Arguments.known, argv = line.spell :=
  ⟨parseArgs_spell, Getopt.exists_line⟩

/-! ## The arguments that can be asked for -/

/-- The system passes arguments as strings that end at their terminator. -/
def CStrings (texts : List (List Char)) : Prop :=
  ∀ text ∈ texts, Tokens.nul ∉ text

theorem outcome_ok {line : Getopt.Line Arguments.known} {wanted : Arguments}
    (accepted : outcome line = .ok wanted) :
    wanted = meaning line.settings ∧
      ∃ config, latestText 'c' line.settings = some config := by
  rw [outcome] at accepted
  split at accepted
  · cases accepted
  · split at accepted
    · split at accepted
      · cases accepted
      · next given =>
          exact ⟨(Except.ok.inj accepted).symm, Option.ne_none_iff_exists'.mp given⟩
    · cases accepted

section Settings

variable {line : Getopt.Line Arguments.known} (strings : CStrings line.spell)
include strings

theorem notMem_optarg {setting : Setting} (member : setting ∈ line.settings) :
    Tokens.nul ∉ setting.2 := by
  rcases Getopt.Line.exists_arg_of_mem_settings member with ⟨arg, given, within⟩
  exact fun inside => strings arg given (within _ inside)

theorem notMem_latestText {name : Char} {text : List Char}
    (latest : latestText name line.settings = some text) :
    Tokens.nul ∉ text := by
  rcases Option.map_eq_some_iff.mp latest with ⟨setting, found, rfl⟩
  exact notMem_optarg strings (DirectMapped.mem_of_latest found).1

theorem notMem_filter {filter : List Char}
    (member : filter ∈ (meaning line.settings).filterList) :
    Tokens.nul ∉ filter ∧ ',' ∉ filter := by
  rcases List.mem_flatMap.mp member with ⟨setting, given, added⟩
  rw [filtersOf] at added
  split at added
  · refine ⟨fun inside => ?_, Splitting.notMem_of_mem_pieces (by simp) added⟩
    exact notMem_optarg strings given (Splitting.mem_of_mem_pieces added inside)
  · cases added

end Settings

def request (config : List Char) (wanted : Arguments) :
    Getopt.Line Arguments.known where
  items :=
    [.separate 'c' config, .separate 't' (signed wanted.numThreads.toNat),
      .separate 'd' (signed wanted.duration.toInt),
      .separate 'f' (Splitting.terminated ',' wanted.filterList)]
  ending := .finished
  itemsFit := by simp [Getopt.Item.Fits, Arguments.known]
  endingFits := trivial

theorem stoi_numThreads (wanted : Arguments) :
    stoi (signed wanted.numThreads.toNat) = .ok wanted.numThreads.toNat :=
  stoi_signed (by omega) (by have := wanted.numThreads.isLt; omega)

theorem stoi_duration (wanted : Arguments) :
    stoi (signed wanted.duration.toInt) = .ok wanted.duration.toInt :=
  stoi_signed (BitVec.le_toInt _) (BitVec.toInt_lt)

theorem outcome_request {config : List Char} {wanted : Arguments}
    (given : wanted.dpdkConfig = some config)
    (noComma : ∀ filter ∈ wanted.filterList, ',' ∉ filter) :
    outcome (request config wanted) = .ok wanted := by
  have settings : (request config wanted).settings =
      [('c', config), ('t', signed wanted.numThreads.toNat),
        ('d', signed wanted.duration.toInt),
        ('f', Splitting.terminated ',' wanted.filterList)] := rfl
  have filters : Splitting.pieces ',' []
      (Splitting.terminated ',' wanted.filterList) = wanted.filterList :=
    Splitting.pieces_eq_iff.mpr ⟨noComma, .inl rfl⟩
  have converts : (request config wanted).settings.findSome? conversionError =
      none := by
    simp [settings, conversionError, stoi_numThreads, stoi_duration]
  have means : meaning (request config wanted).settings = wanted := by
    simp [settings, meaning, latestNumber, latestText, DirectMapped.latest,
      filtersOf, filters, stoi_numThreads, stoi_duration, Except.toOption, ← given]
  have config_given :
      latestText 'c' (request config wanted).settings = some config := by
    simp [settings, latestText, DirectMapped.latest]
  have regular : (request config wanted).ending.Regular := trivial
  rw [outcome, converts, means, config_given]
  simp only [if_pos regular, reduceCtorEq, if_false]

theorem request_strings {config : List Char} {wanted : Arguments}
    (configEnds : Tokens.nul ∉ config)
    (filtersEnd : ∀ filter ∈ wanted.filterList, Tokens.nul ∉ filter) :
    CStrings (request config wanted).spell := by
  have number : ∀ value, Tokens.nul ∉ signed value :=
    notMem_signed (by decide) (by decide)
  have filters : Tokens.nul ∉ Splitting.terminated ',' wanted.filterList := by
    intro within
    rcases Splitting.mem_terminated within with comma | ⟨filter, member, inside⟩
    · exact absurd comma (by decide)
    · exact filtersEnd filter member inside
  have options : ∀ name ∈ ['c', 't', 'd', 'f'], Tokens.nul ∉ ['-', name] := by
    simp [Tokens.nul]
  have spelled : (request config wanted).spell =
      [['-', 'c'], config, ['-', 't'], signed wanted.numThreads.toNat,
        ['-', 'd'], signed wanted.duration.toInt,
        ['-', 'f'], Splitting.terminated ',' wanted.filterList] := rfl
  intro text member
  rw [spelled] at member
  simp only [List.mem_cons, List.not_mem_nil, or_false] at member
  rcases member with rfl | rfl | rfl | rfl | rfl | rfl | rfl | rfl
  · exact options 'c' (by decide)
  · exact configEnds
  · exact options 't' (by decide)
  · exact number _
  · exact options 'd' (by decide)
  · exact number _
  · exact options 'f' (by decide)
  · exact filters

/-- The arguments that some command line asks for: everything but filters that
hold a comma. -/
theorem exists_argv_iff (wanted : Arguments) :
    (∃ argv, CStrings argv ∧ Arguments.parseArgs argv = .ok wanted) ↔
      (∃ config, wanted.dpdkConfig = some config ∧ Tokens.nul ∉ config) ∧
        ∀ filter ∈ wanted.filterList,
          Tokens.nul ∉ filter ∧ ',' ∉ filter := by
  constructor
  · rintro ⟨argv, strings, accepted⟩
    have spelled : ∃ line : Getopt.Line Arguments.known, argv = line.spell :=
      Getopt.exists_line argv
    rcases spelled with ⟨line, rfl⟩
    rw [parseArgs_spell] at accepted
    rcases outcome_ok accepted with ⟨rfl, config, given⟩
    exact ⟨⟨config, given, notMem_latestText strings given⟩,
      fun filter member => notMem_filter strings member⟩
  · rintro ⟨⟨config, given, configEnds⟩, filters⟩
    refine ⟨(request config wanted).spell, ?_, ?_⟩
    · exact request_strings configEnds
        fun filter member => (filters filter member).1
    · rw [parseArgs_spell]
      exact outcome_request given fun filter member => (filters filter member).2

end PacketFilter.Contracts.CommandLine
