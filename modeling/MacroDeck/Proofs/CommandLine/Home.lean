import MacroDeck.Proofs.CommandLine.WholeRun
import MacroDeck.Proofs.Disk.Directories

namespace MacroDeck

namespace World

variable (w : World)

/-- The program's own directory, if the user has one to keep it in. -/
def ownDirectory? : Option Path :=
  ((w.environment "USERPROFILE").or (w.environment "HOME")).map (·.join Home.directoryName)

/-- The machine once the program's directory is there, if it can be made. -/
def settled : World :=
  match w.ownDirectory? with
  | none => w
  | some directory =>
    if w.disk.exists? directory then w else { w with disk := w.disk.makeDirectories directory }

/-- The path of the program's log: in the current directory, if the user has none. -/
def logPath : Path :=
  (w.ownDirectory?.map (·.join "termfiles.log")).getD (.ofString "termfiles.log")

abbrev configPath : Option Path × World :=
  (Home.configPath? : StateM World _) w

end World

namespace Home

theorem path?_run (w : World) :
    (path? : StateM World _) w = ((w.environment "USERPROFILE").or (w.environment "HOME"), w) := by
  cases h : w.environment "USERPROFILE" <;> simp [path?, Machine.lookup, bind, StateT.bind, h, pure_run]

theorem directory?_run (w : World) : (directory? : StateM World _) w = (w.ownDirectory?, w.settled) := by
  unfold directory? World.settled World.ownDirectory?
  rw [bind_run rfl, path?_run]
  cases (w.environment "USERPROFILE").or (w.environment "HOME") with
  | none => rfl
  | some home =>
    cases h : w.disk.exists? (home.join directoryName) <;>
      simp [Machine.exists?, Machine.makeDirectories, bind, StateT.bind, h, pure_run]

theorem configPath?_run (w : World) :
    (configPath? : StateM World _) w = (w.ownDirectory?.map (·.join "config.toml"), w.settled) :=
  (bind_run rfl).trans (by rw [directory?_run]; rfl)

theorem logPath_run (w : World) : (logPath : StateM World _) w = (w.logPath, w.settled) := by
  unfold logPath World.logPath
  rw [bind_run rfl, directory?_run]
  cases w.ownDirectory? <;> rfl

end Home

namespace World

variable (w : World)

theorem settled_eq : w.settled = { w with disk := w.settled.disk } := by
  unfold settled
  split
  next => rfl
  next => split <;> rfl

@[simp] theorem ownDirectory?_settled : w.settled.ownDirectory? = w.ownDirectory? := by
  rw [settled_eq]
  rfl

theorem extends_settled : w.disk.Extends w.settled.disk := by
  unfold settled
  split
  next => exact .refl _
  next =>
    split
    next => exact .refl _
    next => exact Disk.extends_makeDirectories _ _

@[simp] theorem settled_settled : w.settled.settled = w.settled := by
  cases h : w.ownDirectory? with
  | none => simp [settled, h]
  | some directory =>
    cases there : w.disk.exists? directory with
    | true => simp [settled, h, there]
    | false =>
      have made : w.settled = { w with disk := w.disk.makeDirectories directory } := by simp [settled, h, there]
      have known : w.settled.ownDirectory? = some directory := (ownDirectory?_settled w).trans h
      rw [settled, known]
      dsimp only
      split
      next => rfl
      next =>
        rw [made]
        dsimp only
        rw [Disk.makeDirectories_again]

/-- The machine once the log is opened, and whether it is. -/
def openedLog : Bool × World :=
  (Machine.openLog w.logPath : StateM World Bool) w.settled

theorem openLog_run (path : Path) (w : World) :
    (Machine.openLog path : StateM World Bool) w =
      match w.disk.ensureFile path with
      | .ok disk => (true, { w with disk })
      | .error _ => (false, w) := by
  dsimp only [Machine.openLog, bind, StateT.bind, changeDisk]
  cases w.disk.ensureFile path <;> rfl

theorem openedLog_eq : w.openedLog.2 = { w with disk := w.openedLog.2.disk } := by
  rw [openedLog, openLog_run]
  cases w.settled.disk.ensureFile w.logPath with
  | error e => exact w.settled_eq
  | ok disk => exact congrArg (fun left => { left with disk }) w.settled_eq

theorem extends_openedLog : w.disk.Extends w.openedLog.2.disk := by
  rw [openedLog, openLog_run]
  cases made : w.settled.disk.ensureFile w.logPath with
  | error e => exact w.extends_settled
  | ok disk => exact w.extends_settled.trans (Disk.extends_ensureFile made)

theorem openJournal_run (level : String) :
    w.openJournal level = (if w.openedLog.1 then some ⟨w.logPath, .ofName level⟩ else none, w.openedLog.2) := by
  unfold openJournal Journal.open?
  rw [bind_run rfl, Home.logPath_run, bind_run rfl]
  unfold openedLog
  dsimp only
  split <;> rfl

/-- The log is opened in the same place, whether the program's directory is there already or not. -/
theorem openJournal_settled (level : String) : w.settled.openJournal level = w.openJournal level := by
  rw [openJournal_run, openJournal_run, openedLog, openedLog, logPath, logPath, ownDirectory?_settled, settled_settled]

theorem runFiles_settled (options : Options) (config : Config) :
    (runFiles options config : StateM World Nat) w.settled = (runFiles options config : StateM World Nat) w := by
  unfold runFiles
  exact bind_same (w.openJournal_settled config.logLevel)

end World

namespace Config

/-- The configuration in the file at the path, or the default one where there is none that can be read. -/
def ofFile (d : Disk) : Option Path → Config
  | none => {}
  | some path =>
    match ofContent path (d.read path) with
    | .ok config => config
    | .error _ => {}

theorem load_run (w : World) :
    (load : StateM World Config) w = (ofFile w.settled.disk w.configPath.1, w.settled) := by
  unfold load World.configPath
  rw [bind_run rfl, Home.configPath?_run]
  cases w.ownDirectory? with
  | none => rfl
  | some directory =>
    dsimp only [Option.map_some]
    rw [bind_run rfl]
    dsimp only [Machine.exists?]
    by_cases there : w.settled.disk.exists? (directory.join "config.toml") = true
    · have loaded : (loadFrom (directory.join "config.toml") : StateM World _) w.settled =
          (ofContent (directory.join "config.toml") (w.settled.disk.read (directory.join "config.toml")), w.settled) :=
        rfl
      rw [if_pos there, bind_run rfl, loaded, ofFile]
      cases ofContent (directory.join "config.toml") (w.settled.disk.read (directory.join "config.toml")) <;> rfl
    · obtain ⟨e, absent⟩ := Disk.read_of_not_exists (Bool.eq_false_iff.mpr there)
      rw [if_neg there, ofFile, absent]
      rfl

end Config

namespace Options

variable {options : Options} {w : World}

/-- The configuration with what the options change in it. -/
def adjust (options : Options) (config : Config) : Config :=
  if options.skipInvalid then { config with policy := .skip } else config

theorem config_of_some {place : String} (asked : options.configPath = some place) :
    w.config options =
      ((Config.ofContent (.ofString place) (w.disk.read (.ofString place))).map options.adjust, w) := by
  unfold World.config Options.config
  rw [asked]
  rfl

theorem config_of_none (unasked : options.configPath = none) :
    w.config options = (.ok (options.adjust (Config.ofFile w.settled.disk w.configPath.1)), w.settled) := by
  unfold World.config Options.config
  rw [unasked]
  dsimp only
  rw [bind_run rfl, Config.load_run]
  rfl

end Options

/-- A run opens its files in the same way, whether or not it has made the program's directory for its
configuration. -/
theorem run_eq_runFiles {arguments : List String} {options : Options} {config : Config} {w : World}
    (accepted : Request.ofArguments arguments = .files options) (loaded : (w.config options).1 = .ok config) :
    w.run arguments = (runFiles options config : StateM World Nat) w := by
  rw [run_of_files accepted loaded]
  cases h : options.configPath with
  | none =>
    rw [Options.config_of_none h]
    exact w.runFiles_settled options config
  | some place => rw [Options.config_of_some h]

end MacroDeck
