import MacroDeck.CommandLine.Options
import Mathlib.Data.List.Basic
import Mathlib.Data.List.Perm.Basic
import Mathlib.Tactic.SplitIfs
import Mathlib.Tactic.Tauto

namespace MacroDeck

namespace Argument

/-- The names of options, with the mark that ends them. -/
def reserved : List String :=
  ["-h", "--help", "-v", "--version", "-n", "--dry-run", "-s", "--skip-invalid", "-c", "--config", "--"]

/-- What an argument of the kind looks like. -/
def Spelled : Argument → String → Prop
  | help, a => a = "-h" ∨ a = "--help"
  | version, a => a = "-v" ∨ a = "--version"
  | dryRun, a => a = "-n" ∨ a = "--dry-run"
  | skipInvalid, a => a = "-s" ∨ a = "--skip-invalid"
  | config, a => a = "-c" ∨ a = "--config"
  | endOfOptions, a => a = "--"
  | unknown, a => a.toList.head? = some '-' ∧ a ≠ "-" ∧ a ∉ reserved
  | file, a => a.toList.head? ≠ some '-' ∨ a = "-"

theorem spelled_of (a : String) : (Argument.of a).Spelled a := by
  unfold Argument.of
  split_ifs with isHelp isVersion isDryRun isSkip isConfig isEnd isUnknown
  · exact isHelp
  · exact isVersion
  · exact isDryRun
  · exact isSkip
  · exact isConfig
  · exact isEnd
  · have free : a ∉ reserved := by
      simp only [reserved, List.mem_cons, List.not_mem_nil, or_false]
      tauto
    exact ⟨isUnknown.1, isUnknown.2, free⟩
  · exact (not_and_or.mp isUnknown).imp_right not_not.mp

/-- Every name that is reserved begins as an option does. -/
theorem not_reserved_of_file {a : String} (h : file.Spelled a) : a ∉ reserved := by
  have begin_with_dash : ∀ name ∈ reserved, ¬ file.Spelled name := by
    unfold Spelled
    decide
  exact fun among => begin_with_dash a among h

theorem of_eq_iff {a : String} {kind : Argument} : Argument.of a = kind ↔ kind.Spelled a := by
  refine ⟨fun h => h ▸ spelled_of a, fun h => ?_⟩
  cases kind with
  | help | version | dryRun | skipInvalid | config => rcases h with rfl | rfl <;> rfl
  | endOfOptions => exact h ▸ rfl
  | unknown =>
    obtain ⟨dashed, long, free⟩ := h
    simp only [reserved, List.mem_cons, List.not_mem_nil, or_false, not_or] at free
    simp [Argument.of, dashed, long, free]
  | file =>
    have free := not_reserved_of_file h
    simp only [reserved, List.mem_cons, List.not_mem_nil, or_false, not_or] at free
    have plain : ¬ (a.toList.head? = some '-' ∧ a ≠ "-") := not_and_or.mpr (h.imp_right not_not.mpr)
    simp [Argument.of, free, plain]

end Argument

/-- A part of a command line after which options are still read. A configuration is named by its option and the next
argument, whatever that is. -/
inductive Portion where
  | dryRun (option : String) (spelled : Argument.dryRun.Spelled option)
  | skipInvalid (option : String) (spelled : Argument.skipInvalid.Spelled option)
  | config (option path : String) (spelled : Argument.config.Spelled option)
  | file (name : String) (spelled : Argument.file.Spelled name)

/-- How the reading of options ends. -/
inductive Ending where
  | nothing
  /-- After the mark all arguments are files. -/
  | files (names : List String)
  | help (option : String) (spelled : Argument.help.Spelled option) (rest : List String)
  | version (option : String) (spelled : Argument.version.Spelled option) (rest : List String)
  | unknown (option : String) (spelled : Argument.unknown.Spelled option) (rest : List String)
  /-- No argument is left to name a configuration. -/
  | unnamed (option : String) (spelled : Argument.config.Spelled option)

structure CommandLine where
  portions : List Portion
  ending : Ending

namespace Portion

def words : Portion → List String
  | dryRun option _ | skipInvalid option _ => [option]
  | config option path _ => [option, path]
  | file name _ => [name]

def file? : Portion → Option String
  | file name _ => some name
  | _ => none

def path? : Portion → Option String
  | config _ path _ => some path
  | _ => none

def isDryRun : Portion → Bool
  | dryRun _ _ => true
  | _ => false

def isSkipInvalid : Portion → Bool
  | skipInvalid _ _ => true
  | _ => false

def kind : Portion → Argument
  | dryRun _ _ => .dryRun
  | skipInvalid _ _ => .skipInvalid
  | config _ _ _ => .config
  | file _ _ => .file

end Portion

def Ending.words : Ending → List String
  | nothing => []
  | files names => "--" :: names
  | help option _ rest | version option _ rest | unknown option _ rest => option :: rest
  | unnamed option _ => [option]

namespace CommandLine

/-- The arguments, in order. -/
def words (line : CommandLine) : List String :=
  line.portions.flatMap Portion.words ++ line.ending.words

/-- What the portions say, with the files that come after them. -/
def options (line : CommandLine) (later : List String) : Options where
  files := line.portions.filterMap Portion.file? ++ later
  dryRun := line.portions.any Portion.isDryRun
  skipInvalid := line.portions.any Portion.isSkipInvalid
  configPath := (line.portions.filterMap Portion.path?).getLast?

/-- What the command line asks for. -/
def request (line : CommandLine) : Request :=
  match line.ending with
  | .nothing => asking []
  | .files names => asking names
  | .help _ _ _ => .help
  | .version _ _ _ => .version
  | .unknown option _ _ => .invalid (.unknownArgument option)
  | .unnamed _ _ => .invalid .missingConfigPath
where
  asking (later : List String) : Request :=
    if (line.options later).files = [] then .invalid .noFiles else .files (line.options later)

end CommandLine

/-- The options once the portion has been read. -/
def Options.after (options : Options) : Portion → Options
  | .dryRun _ _ => { options with dryRun := true }
  | .skipInvalid _ _ => { options with skipInvalid := true }
  | .config _ path _ => { options with configPath := some path }
  | .file name _ => { options with files := options.files ++ [name] }

namespace Request

theorem read_portion (portion : Portion) (rest : List String) (options : Options) :
    read (portion.words ++ rest) options = read rest (options.after portion) := by
  cases portion with
  | dryRun option spelled | skipInvalid option spelled | config option path spelled | file option spelled =>
    have kind := Argument.of_eq_iff.mpr spelled
    rw [Portion.words, List.cons_append]
    conv_lhs => unfold read
    rw [kind]
    rfl

theorem read_portions (portions : List Portion) (rest : List String) (options : Options) :
    read (portions.flatMap Portion.words ++ rest) options = read rest (portions.foldl Options.after options) := by
  induction portions generalizing options with
  | nil => rfl
  | cons portion portions ih =>
    rw [List.flatMap_cons, List.append_assoc, read_portion, ih]
    rfl

end Request

theorem Options.foldl_after (portions : List Portion) (options : Options) :
    portions.foldl Options.after options =
      { files := options.files ++ portions.filterMap Portion.file?
        dryRun := options.dryRun || portions.any Portion.isDryRun
        skipInvalid := options.skipInvalid || portions.any Portion.isSkipInvalid
        configPath := (portions.filterMap Portion.path?).getLast?.or options.configPath } := by
  induction portions generalizing options with
  | nil => simp
  | cons portion portions ih =>
    rw [List.foldl_cons, ih]
    cases portion with
    | dryRun option spelled | skipInvalid option spelled =>
      simp [after, List.filterMap_cons, Portion.file?, Portion.path?, Portion.isDryRun, Portion.isSkipInvalid]
    | config option path spelled =>
      have last : (portions.filterMap Portion.path?).getLast?.or (some path) =
          (path :: portions.filterMap Portion.path?).getLast?.or options.configPath := by
        rw [List.getLast?_cons]
        cases (portions.filterMap Portion.path?).getLast? <;> rfl
      simp only [after, last]
      rfl
    | file name spelled =>
      simp [after, List.filterMap_cons, Portion.file?, Portion.path?, Portion.isDryRun, Portion.isSkipInvalid]

namespace Request

theorem ofOptions_eq (options : Options) :
    ofOptions options = if options.files = [] then .invalid .noFiles else .files options := by
  simp [ofOptions]

theorem read_ending (ending : Ending) (options : Options) :
    read ending.words options =
      match ending with
      | .nothing => ofOptions options
      | .files names => ofOptions { options with files := options.files ++ names }
      | .help _ _ _ => .help
      | .version _ _ _ => .version
      | .unknown option _ _ => .invalid (.unknownArgument option)
      | .unnamed _ _ => .invalid .missingConfigPath := by
  cases ending with
  | nothing => rfl
  | files names => rfl
  | help option spelled rest | version option spelled rest | unknown option spelled rest | unnamed option spelled =>
    have kind := Argument.of_eq_iff.mpr spelled
    rw [Ending.words]
    unfold read
    rw [kind]

theorem ofArguments_words (line : CommandLine) : ofArguments line.words = line.request := by
  obtain ⟨portions, ending⟩ := line
  have read_line : ofArguments (CommandLine.words ⟨portions, ending⟩) =
      read ending.words (CommandLine.options ⟨portions, ending⟩ []) := by
    rw [ofArguments, CommandLine.words, read_portions, Options.foldl_after]
    simp [CommandLine.options]
  rw [read_line, read_ending]
  cases ending with
  | nothing => exact ofOptions_eq _
  | files names =>
    have with_names (line : CommandLine) :
        { line.options [] with files := (line.options []).files ++ names } = line.options names := by
      simp only [CommandLine.options, List.append_nil]
    exact (congrArg ofOptions (with_names _)).trans (ofOptions_eq _)
  | help option spelled rest | version option spelled rest | unknown option spelled rest | unnamed option spelled => rfl

end Request

theorem Portion.head_kind (portion : Portion) (rest : List String) :
    (portion.words ++ rest).head?.map Argument.of = some portion.kind := by
  cases portion with
  | dryRun option spelled | skipInvalid option spelled | config option path spelled | file option spelled =>
    exact congrArg some (Argument.of_eq_iff.mpr spelled)

/-- The kind of argument with which an ending begins. -/
def Ending.kind? : Ending → Option Argument
  | nothing => none
  | files _ => some .endOfOptions
  | help _ _ _ => some .help
  | version _ _ _ => some .version
  | unknown _ _ _ => some .unknown
  | unnamed _ _ => some .config

theorem Ending.head_kind (ending : Ending) : ending.words.head?.map Argument.of = ending.kind? := by
  cases ending with
  | nothing => rfl
  | files names => rfl
  | help option spelled rest | version option spelled rest | unknown option spelled rest | unnamed option spelled =>
    exact congrArg some (Argument.of_eq_iff.mpr spelled)

/-- Where a portion ends is told by the arguments. -/
theorem Portion.words_append_inj {portion other : Portion} {x y : List String}
    (same : portion.words ++ x = other.words ++ y) : portion = other ∧ x = y := by
  have kinds : some portion.kind = some other.kind := by rw [← portion.head_kind x, same, other.head_kind]
  cases portion with
  | dryRun option spelled =>
    cases other with
    | dryRun => simpa [words] using same
    | _ => cases kinds
  | skipInvalid option spelled =>
    cases other with
    | skipInvalid => simpa [words] using same
    | _ => cases kinds
  | config option path spelled =>
    cases other with
    | config => simpa [words, and_assoc] using same
    | _ => cases kinds
  | file name spelled =>
    cases other with
    | file => simpa [words] using same
    | _ => cases kinds

namespace Ending

theorem words_injective {ending other : Ending} (same : ending.words = other.words) : ending = other := by
  have kinds : ending.kind? = other.kind? := by rw [← head_kind, same, head_kind]
  cases ending with
  | nothing =>
    cases other with
    | nothing => rfl
    | _ => cases kinds
  | files names =>
    cases other with
    | files => simpa [words] using same
    | _ => cases kinds
  | help option spelled rest =>
    cases other with
    | help => simpa [words] using same
    | _ => cases kinds
  | version option spelled rest =>
    cases other with
    | version => simpa [words] using same
    | _ => cases kinds
  | unknown option spelled rest =>
    cases other with
    | unknown => simpa [words] using same
    | _ => cases kinds
  | unnamed option spelled =>
    cases other with
    | unnamed => simpa [words] using same
    | _ => cases kinds

/-- No portion is left where an ending begins. An option for a configuration alone lacks the path of the portion. -/
theorem words_ne_append (ending : Ending) (portion : Portion) (rest : List String) :
    ending.words ≠ portion.words ++ rest := by
  intro same
  have kinds : ending.kind? = some portion.kind := by rw [← head_kind, same, portion.head_kind]
  cases portion with
  | config option path spelled =>
    cases ending with
    | unnamed => simp [words, Portion.words] at same
    | _ => cases kinds
  | _ => cases ending <;> cases kinds

end Ending

namespace CommandLine

theorem words_cons (portion : Portion) (portions : List Portion) (ending : Ending) :
    words ⟨portion :: portions, ending⟩ = portion.words ++ words ⟨portions, ending⟩ := by
  simp [words]

theorem words_injective {line other : CommandLine} (same : line.words = other.words) : line = other := by
  obtain ⟨portions, ending⟩ := line
  obtain ⟨portions', ending'⟩ := other
  induction portions generalizing portions' with
  | nil =>
    cases portions' with
    | nil => exact congrArg (CommandLine.mk []) (Ending.words_injective same)
    | cons portion' portions' => exact absurd (words_cons .. ▸ same) (ending.words_ne_append portion' _)
  | cons portion portions ih =>
    cases portions' with
    | nil => exact absurd (words_cons .. ▸ same.symm) (ending'.words_ne_append portion _)
    | cons portion' portions' =>
      rw [words_cons, words_cons] at same
      obtain ⟨rfl, later⟩ := Portion.words_append_inj same
      obtain ⟨rfl, rfl⟩ := CommandLine.mk.inj (ih portions' later)
      rfl

theorem exists_words_eq (arguments : List String) : ∃ line : CommandLine, line.words = arguments := by
  have put (portion : Portion) {rest : List String} (h : ∃ line : CommandLine, line.words = rest) :
      ∃ line : CommandLine, line.words = portion.words ++ rest := by
    obtain ⟨⟨portions, ending⟩, rfl⟩ := h
    exact ⟨⟨portion :: portions, ending⟩, words_cons ..⟩
  have spelled {argument : String} {kind : Argument} (h : Argument.of argument = kind) : kind.Spelled argument :=
    Argument.of_eq_iff.mp h
  fun_induction Request.read arguments {} with
  | case1 => exact ⟨⟨[], .nothing⟩, rfl⟩
  | case2 argument rest options kind => exact ⟨⟨[], .help argument (spelled kind) rest⟩, rfl⟩
  | case3 argument rest options kind => exact ⟨⟨[], .version argument (spelled kind) rest⟩, rfl⟩
  | case4 argument rest options kind ih => exact put (.dryRun argument (spelled kind)) ih
  | case5 argument rest options kind ih => exact put (.skipInvalid argument (spelled kind)) ih
  | case6 argument options kind => exact ⟨⟨[], .unnamed argument (spelled kind)⟩, rfl⟩
  | case7 argument options kind path rest ih => exact put (.config argument path (spelled kind)) ih
  | case8 argument rest options kind => exact ⟨⟨[], .files rest⟩, congrArg (· :: rest) (spelled kind).symm⟩
  | case9 argument rest options kind => exact ⟨⟨[], .unknown argument (spelled kind) rest⟩, rfl⟩
  | case10 argument rest options kind ih => exact put (.file argument (spelled kind)) ih

end CommandLine

/-- The same portions in another order, in which neither the files nor the paths of configurations change places among
themselves. -/
structure Rearranged (portions portions' : List Portion) : Prop where
  perm : portions.Perm portions'
  files : portions.filterMap Portion.file? = portions'.filterMap Portion.file?
  paths : portions.filterMap Portion.path? = portions'.filterMap Portion.path?

theorem Rearranged.request_eq {portions portions' : List Portion} (h : Rearranged portions portions')
    (ending : Ending) :
    CommandLine.request ⟨portions', ending⟩ = CommandLine.request ⟨portions, ending⟩ := by
  have options (later : List String) :
      CommandLine.options ⟨portions', ending⟩ later = CommandLine.options ⟨portions, ending⟩ later := by
    simp only [CommandLine.options, h.files, h.paths, h.perm.any_eq]
  unfold CommandLine.request CommandLine.request.asking
  simp only [options]

/-- There is one way to read the arguments as portions and an ending, and it tells what they ask for. An option for a
configuration takes the argument after it, whatever it is; after the mark there are only files; and what comes after
help, the version or an option that is unknown does not matter. Otherwise the files are those of the portions and those
after the mark, in order, and of several configurations the last one is taken. Where the options stand among the
portions makes no difference. -/
theorem ofArguments_reading (arguments : List String) :
    (∃! line : CommandLine, line.words = arguments) ∧
    ∀ line : CommandLine, line.words = arguments →
      Request.ofArguments arguments = line.request ∧
      ∀ portions, Rearranged line.portions portions →
        Request.ofArguments (CommandLine.words ⟨portions, line.ending⟩) = Request.ofArguments arguments := by
  refine ⟨?_, ?_⟩
  · obtain ⟨line, written⟩ := CommandLine.exists_words_eq arguments
    exact ⟨line, written, fun other same => CommandLine.words_injective (same.trans written.symm)⟩
  · rintro line rfl
    refine ⟨Request.ofArguments_words line, fun portions rearranged => ?_⟩
    rw [Request.ofArguments_words, Request.ofArguments_words, rearranged.request_eq]

/-- A configuration may be named by the mark or by another option, and the last argument looks like one too. -/
theorem ofArguments_reading_of_named_mark :
    let options : Options :=
      { files := ["-", "", "-x", "-n"], dryRun := true, skipInvalid := true, configPath := some "-h" }
    Request.ofArguments ["-s", "-c", "--", "-", "-c", "-h", "", "-n", "--", "-x", "-n"] = .files options ∧
      Request.ofArguments ["-n", "-s", "-c", "--", "-", "-c", "-h", "", "--", "-x", "-n"] = .files options := by
  intro options
  let before : List Portion :=
    [.skipInvalid "-s" (.inl rfl), .config "-c" "--" (.inl rfl), .file "-" (.inr rfl), .config "-c" "-h" (.inl rfl),
      .file "" (.inl (by decide))]
  let dry : Portion := .dryRun "-n" (.inl rfl)
  let line : CommandLine := ⟨before ++ [dry], .files ["-x", "-n"]⟩
  obtain ⟨-, reads⟩ := ofArguments_reading ["-s", "-c", "--", "-", "-c", "-h", "", "-n", "--", "-x", "-n"]
  obtain ⟨asked, rearranged⟩ := reads line rfl
  have accepted : line.request = .files options := rfl
  have moved : Rearranged line.portions (dry :: before) := ⟨List.perm_append_singleton dry before, rfl, rfl⟩
  exact ⟨asked.trans accepted, (rearranged _ moved).trans (asked.trans accepted)⟩

end MacroDeck
