import MacroDeck.CommandLine.Run
import MacroDeck.World

namespace MacroDeck

theorem pure_run {α : Type} (a : α) (w : World) : (pure a : StateM World α) w = (a, w) :=
  rfl

theorem bind_run {α β : Type} {action : StateM World α} {next : α → StateM World β} {w : World} {a : α}
    (given : (action w).1 = a) : (action >>= next) w = next a (action w).2 := by
  subst given
  rfl

theorem bind_same {α β : Type} {action : StateM World α} {next : α → StateM World β} {w w' : World}
    (same : action w' = action w) : (action >>= next) w' = (action >>= next) w :=
  congrArg (fun (a, left) => next a left) same

/-- The action changes nothing of the machine but its disk. -/
def DiskOnly {α : Type} (action : StateM World α) : Prop :=
  ∀ w, (action w).2 = { w with disk := (action w).2.disk }

namespace DiskOnly

variable {α β : Type}

theorem pure (a : α) : DiskOnly (Pure.pure a) :=
  fun _ => rfl

theorem bind {action : StateM World α} {next : α → StateM World β} (first : DiskOnly action)
    (later : ∀ a, DiskOnly (next a)) : DiskOnly (action >>= next) := by
  intro w
  have second := later (action w).1 (action w).2
  rw [first w] at second
  rw [bind_run rfl, first w]
  exact second

theorem changeDisk (change : Disk → Except IoError Disk) : DiskOnly (World.changeDisk change) := by
  intro w
  unfold World.changeDisk
  cases change w.disk <;> rfl

theorem lookup (name : String) : DiskOnly (Machine.lookup name) :=
  fun _ => rfl

theorem read (path : Path) : DiskOnly (Machine.read path) :=
  fun _ => rfl

theorem exists? (path : Path) : DiskOnly (Machine.exists? path) :=
  fun _ => rfl

theorem makeDirectories (path : Path) : DiskOnly (Machine.makeDirectories path) :=
  fun _ => rfl

theorem openLog (path : Path) : DiskOnly (Machine.openLog path) :=
  (changeDisk _).bind fun _ => pure _

end DiskOnly

theorem Home.diskOnly_path? : DiskOnly Home.path? :=
  (DiskOnly.lookup _).bind fun
    | some _ => .pure _
    | none => .lookup _

theorem Home.diskOnly_directory? : DiskOnly Home.directory? :=
  diskOnly_path?.bind fun
    | none => .pure _
    | some _ => (DiskOnly.exists? _).bind fun
      | true => .pure _
      | false => (DiskOnly.makeDirectories _).bind fun _ => .pure _

theorem Home.diskOnly_configPath? : DiskOnly Home.configPath? :=
  diskOnly_directory?.bind fun _ => .pure _

theorem Home.diskOnly_logPath : DiskOnly Home.logPath :=
  diskOnly_directory?.bind fun
    | some _ => .pure _
    | none => .pure _

theorem Config.diskOnly_loadFrom (path : Path) : DiskOnly (Config.loadFrom path) :=
  (DiskOnly.read path).bind fun _ => .pure _

theorem Config.diskOnly_load : DiskOnly Config.load :=
  Home.diskOnly_configPath?.bind fun
    | none => .pure _
    | some path => (DiskOnly.exists? path).bind fun
      | false => .pure _
      | true => (diskOnly_loadFrom path).bind fun
        | .ok _ => .pure _
        | .error _ => .pure _

theorem Options.diskOnly_config (options : Options) : DiskOnly options.config := by
  unfold Options.config
  cases options.configPath with
  | none => exact (Config.diskOnly_load.bind fun _ => .pure _).bind fun _ => .pure _
  | some path => exact (Config.diskOnly_loadFrom _).bind fun _ => .pure _

theorem Journal.diskOnly_open? (level : String) : DiskOnly (Journal.open? level) :=
  Home.diskOnly_logPath.bind fun path => (DiskOnly.openLog path).bind fun
    | true => .pure _
    | false => .pure _

namespace World

abbrev config (w : World) (options : Options) : Except ConfigError Config × World :=
  (options.config : StateM World _) w

abbrev openJournal (w : World) (level : String) : Option Journal × World :=
  (Journal.open? level : StateM World _) w

abbrev run (w : World) (arguments : List String) : Nat × World :=
  (MacroDeck.run arguments : StateM World _) w

/-- The machine when a run of this configuration opens its first file. -/
def ready (w : World) (options : Options) (config : Config) : World :=
  ((w.config options).2.openJournal config.logLevel).2

theorem ready_eq (w : World) (options : Options) (config : Config) :
    w.ready options config = { w with disk := (w.ready options config).disk } := by
  have opened := Journal.diskOnly_open? config.logLevel (w.config options).2
  have same : (w.config options).2 = { w with disk := (w.config options).2.disk } := options.diskOnly_config w
  rw [same] at opened
  unfold ready
  rw [same]
  exact opened

end World

end MacroDeck
