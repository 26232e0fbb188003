import MacroDeck.Proofs.CommandLine.Home

namespace MacroDeck

/-- What is asked of a machine. -/
inductive Deed where
  | lookup (name : String)
  | read (path : Path)
  | write (path : Path) (content : Bytes)
  | look (path : Path)
  | makeDirectories (path : Path)
  | openLog (path : Path)
  | note (path : Path) (event : Event)
  | start (args : List String)
  | print (text : String)
  | report (text : String)
deriving DecidableEq

/-- A machine beside all that has been asked of it, in order. -/
structure Monitored where
  world : World
  deeds : List Deed := []

namespace Monitored

/-- The action done on the machine, and the deed put down. -/
def doing {α : Type} (deed : Deed) (action : StateM World α) : StateM Monitored α := fun m =>
  ((action m.world).1, ⟨(action m.world).2, m.deeds ++ [deed]⟩)

instance : Machine (StateM Monitored) where
  lookup name := doing (.lookup name) (Machine.lookup name)
  read path := doing (.read path) (Machine.read path)
  write path content := doing (.write path content) (Machine.write path content)
  exists? path := doing (.look path) (Machine.exists? path)
  makeDirectories path := doing (.makeDirectories path) (Machine.makeDirectories path)
  openLog path := doing (.openLog path) (Machine.openLog path)
  note path event := doing (.note path event) (Machine.note path event)
  start args := doing (.start args) (Machine.start args)
  print text := doing (.print text) (Machine.print text)
  report text := doing (.report text) (Machine.report text)

end Monitored

/-- The content of the file at the path holds no configuration: with which error. -/
inductive Config.Unusable (path : Path) : Except IoError Bytes → ConfigError → Prop
  | unread (cause : IoError) : Unusable path (.error cause) (.read path cause)
  | notUtf8 {bytes : Bytes} : utf8Text? bytes = none → Unusable path (.ok bytes) (.read path .invalidUtf8)
  | malformed {bytes : Bytes} {text : String} : utf8Text? bytes = some text → Config.ofText? text = none →
      Unusable path (.ok bytes) (.parse path)

theorem Config.ofContent_eq_error_iff {path : Path} {content : Except IoError Bytes} {e : ConfigError} :
    Config.ofContent path content = .error e ↔ Config.Unusable path content e := by
  constructor
  · intro h
    unfold Config.ofContent at h
    split at h
    next cause =>
      cases h
      exact .unread cause
    next bytes =>
      split at h
      next notText =>
        cases h
        exact .notUtf8 notText
      next text decoded =>
        split at h
        next malformed =>
          cases h
          exact .malformed decoded malformed
        next => cases h
  · intro h
    cases h with
    | unread cause => rfl
    | notUtf8 notText => simp [Config.ofContent, notText]
    | malformed decoded malformed => simp [Config.ofContent, decoded, malformed]

/-- The command line is turned down on the machine: with which status, after what has been asked, and what is told. -/
inductive Rejected (w : World) (arguments : List String) : Nat → List Deed → String → Prop
  | help : Request.ofArguments arguments = .help → Rejected w arguments 0 [] helpText
  | version : Request.ofArguments arguments = .version → Rejected w arguments 0 [] versionText
  | invalid {e : ArgumentError} : Request.ofArguments arguments = .invalid e →
      Rejected w arguments 2 [] s!"Error: {e.message}\nUse --help for usage information\n"
  | config {options : Options} {place : String} {e : ConfigError} :
      Request.ofArguments arguments = .files options → options.configPath = some place →
      Config.Unusable (.ofString place) (w.disk.read (.ofString place)) e →
      Rejected w arguments 1 [.read (.ofString place)] e.report

/-- What is not a request for files is turned down on every machine. -/
theorem files_or_rejected (arguments : List String) :
    (∃ options, Request.ofArguments arguments = .files options) ∨
      ∃ status asked text, ∀ w, Rejected w arguments status asked text := by
  cases request : Request.ofArguments arguments with
  | help => exact .inr ⟨0, [], helpText, fun _ => .help request⟩
  | version => exact .inr ⟨0, [], versionText, fun _ => .version request⟩
  | invalid e => exact .inr ⟨2, [], _, fun _ => .invalid request⟩
  | files options => exact .inl ⟨options, rfl⟩

section

variable {w : World} {arguments : List String} {status : Nat} {asked : List Deed} {text : String}

/-- Nothing is asked of the machine but a configuration that the arguments name, and that the reason be told. -/
theorem monitored_run_of_rejected (rejected : Rejected w arguments status asked text) :
    (run arguments : StateM Monitored Nat) ⟨w, []⟩ =
      (status, ⟨{ w with reported := w.reported ++ text }, asked ++ [.report text]⟩) := by
  unfold run
  cases rejected with
  | help h | version h | invalid h =>
    rw [h]
    rfl
  | @config options place e h named unusable =>
    have config_run : (options.config : StateM Monitored _) ⟨w, []⟩ =
        ((Config.ofContent (.ofString place) (w.disk.read (.ofString place))).map options.adjust,
          ⟨w, [.read (.ofString place)]⟩) := by
      unfold Options.config
      rw [named]
      rfl
    rw [Config.ofContent_eq_error_iff.mpr unusable] at config_run
    rw [h]
    dsimp only [bind, StateT.bind]
    rw [config_run]
    rfl

theorem run_of_rejected (rejected : Rejected w arguments status asked text) :
    w.run arguments = (status, { w with reported := w.reported ++ text }) := by
  unfold World.run run
  cases rejected with
  | help h | version h | invalid h =>
    rw [h]
    rfl
  | config h named unusable =>
    have config_run := Options.config_of_some (w := w) named
    rw [Config.ofContent_eq_error_iff.mpr unusable] at config_run
    rw [h]
    exact (bind_run (congrArg Prod.fst config_run)).trans (congrArg _ (congrArg Prod.snd config_run))

end

namespace Request

theorem ofOptions_eq_files {options read : Options} (h : ofOptions options = .files read) :
    options.files.isEmpty = false ∧ options = read := by
  unfold ofOptions at h
  cases empty : options.files.isEmpty with
  | true => simp [empty] at h
  | false => simpa [empty] using h

/-- Arguments that name no configuration are read in the same way after one has been named. -/
theorem read_named {arguments : List String} {options final : Options} (h : read arguments options = .files final)
    (unnamed : final.configPath = none) (place : String) :
    options.configPath = none ∧
      read arguments { options with configPath := some place } =
        .files { final with configPath := some place } := by
  have done {options : Options} (h : ofOptions options = .files final) :
      options.configPath = none ∧ ofOptions { options with configPath := some place } =
        .files { final with configPath := some place } := by
    obtain ⟨some, rfl⟩ := ofOptions_eq_files h
    exact ⟨unnamed, by simp [ofOptions, some]⟩
  fun_induction read arguments options with
  | case1 => exact done h
  | case2 | case3 | case6 | case9 => cases h
  | case4 argument rest options kind ih | case5 argument rest options kind ih | case10 argument rest options kind ih =>
    obtain ⟨free, same⟩ := ih h
    unfold read
    rw [kind]
    exact ⟨free, same⟩
  | case7 argument options kind path rest ih => exact nomatch (ih h).1
  | case8 argument rest options kind =>
    obtain ⟨free, same⟩ := done h
    unfold read
    rw [kind]
    exact ⟨free, same⟩

end Request

theorem Config.ofFile_of_unusable {d : Disk} {own : Option Path}
    (unusable : ∀ path, own = some path → ∃ e, Config.Unusable path (d.read path) e) : Config.ofFile d own = {} := by
  cases own with
  | none => rfl
  | some path =>
    obtain ⟨e, h⟩ := unusable path rfl
    rw [ofFile, ofContent_eq_error_iff.mpr h]

theorem run_named_default {w : World} {arguments : List String} {options : Options} {place : String}
    (accepted : Request.ofArguments arguments = .files options) (unnamed : options.configPath = none)
    (default : Config.ofContent (.ofString place) (w.disk.read (.ofString place)) = .ok {}) :
    w.run ("-c" :: place :: arguments) = (runFiles options (options.adjust {}) : StateM World Nat) w := by
  have named : Request.ofArguments ("-c" :: place :: arguments) =
      .files { options with configPath := some place } :=
    (Request.read_named accepted unnamed place).2
  have config_run := @Options.config_of_some { options with configPath := some place } w place rfl
  rw [default] at config_run
  have ran := run_eq_runFiles named (congrArg Prod.fst config_run)
  exact ran

/-- A command line that is turned down does nothing but tell why: with status 0 for help and version, 2 for bad
arguments and 1 for a configuration that they name and that cannot be used. Where they name none, the files are opened
in any case; if the user's own configuration cannot be used, then in the same way as with the default one. -/
theorem run_of_rejected_or_unnamed_config (w : World) (arguments : List String) :
    (∀ status asked text, Rejected w arguments status asked text →
      (run arguments : StateM Monitored Nat) ⟨w, []⟩ =
          (status, ⟨{ w with reported := w.reported ++ text }, asked ++ [.report text]⟩) ∧
        w.run arguments = (status, { w with reported := w.reported ++ text })) ∧
    ∀ options, Request.ofArguments arguments = .files options → options.configPath = none →
      (∃ config, (w.config options).1 = .ok config ∧
        w.run arguments = (runFiles options config : StateM World Nat) w) ∧
      ((∀ path, w.configPath.1 = some path → ∃ e, Config.Unusable path (w.configPath.2.disk.read path) e) →
        w.run arguments = (runFiles options (options.adjust {}) : StateM World Nat) w ∧
        ∀ place, Config.ofContent (.ofString place) (w.disk.read (.ofString place)) = .ok {} →
          w.run ("-c" :: place :: arguments) = w.run arguments) := by
  refine ⟨fun status asked text rejected => ⟨monitored_run_of_rejected rejected, run_of_rejected rejected⟩,
    fun options accepted unnamed => ?_⟩
  have loaded := congrArg Prod.fst (Options.config_of_none (w := w) unnamed)
  have ran := run_eq_runFiles accepted loaded
  refine ⟨⟨_, loaded, ran⟩, fun unusable => ?_⟩
  have left : w.configPath.2 = w.settled := congrArg Prod.snd (Home.configPath?_run w)
  rw [left] at unusable
  rw [Config.ofFile_of_unusable unusable] at ran
  exact ⟨ran, fun place default => (run_named_default accepted unnamed default).trans ran.symm⟩

/-- A named configuration that is missing stops the run, and one of the user's own that is no text does not. -/
theorem run_of_missing_config_and_of_broken_one :
    let w : World :=
      { disk := (((((Disk.empty.put [utf8 "h"] (some .directory)).put [utf8 "h", utf8 ".termfiles"]
          (some .directory)).put [utf8 "h", utf8 ".termfiles", utf8 "config.toml"] (some (.file [0xFF] false))).put
          [utf8 "a.macros"] (some (.file (utf8 "f1=ls") false))).put [utf8 "d.toml"] (some (.file [] false)))
        environment := fun name => if name = "HOME" then some (.ofString "/h") else none }
    let text := (ConfigError.read (.ofString "gone.toml") .notFound).report
    (run ["-c", "gone.toml", "a.macros"] : StateM Monitored Nat) ⟨w, []⟩ =
        (1, ⟨{ w with reported := text }, [.read (.ofString "gone.toml"), .report text]⟩) ∧
      w.run ["a.macros"] = (runFiles { files := ["a.macros"] } {} : StateM World Nat) w ∧
      w.run ["-c", "d.toml", "a.macros"] = w.run ["a.macros"] := by
  intro w text
  have missing : w.disk.read (.ofString "gone.toml") = .error .notFound := by decide
  have rejected : Rejected w ["-c", "gone.toml", "a.macros"] 1 [.read (.ofString "gone.toml")] text :=
    @Rejected.config w _ { files := ["a.macros"], configPath := some "gone.toml" } "gone.toml" _ (by decide) rfl
      (missing ▸ .unread .notFound)
  have accepted : Request.ofArguments ["a.macros"] = .files { files := ["a.macros"] } := by decide
  have own : w.configPath.1 = some (.ofString "/h/.termfiles/config.toml") := by decide
  have broken : w.configPath.2.disk.read (.ofString "/h/.termfiles/config.toml") = .ok [0xFF] := by decide
  obtain ⟨-, opens⟩ := run_of_rejected_or_unnamed_config w ["a.macros"]
  obtain ⟨opened, named⟩ := (opens _ accepted rfl).2 fun path h => by
    obtain rfl := Option.some.inj (own.symm.trans h)
    rw [broken]
    exact ⟨_, .notUtf8 (by decide)⟩
  refine ⟨?_, opened, named "d.toml" (by decide)⟩
  exact ((run_of_rejected_or_unnamed_config w ["-c", "gone.toml", "a.macros"]).1 _ _ _ rejected).1

end MacroDeck
