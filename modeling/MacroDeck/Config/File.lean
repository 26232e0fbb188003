import MacroDeck.Config

namespace MacroDeck

inductive ConfigError where
  | noPath
  | read (path : Path) (cause : IoError)
  | parse (path : Path)
  | write (cause : IoError)
deriving DecidableEq, Repr

def ConfigError.message : ConfigError → String
  | noPath => "Could not determine config path"
  | read path cause => s!"Failed to read config {path.display}: {cause.message}"
  | parse path => s!"Failed to parse config {path.display}: TOML parse error"
  | write cause => s!"Failed to write config: {cause.message}"

namespace Config

/-- The configuration that the content of a file holds. -/
def ofContent (path : Path) : Except IoError Bytes → Except ConfigError Config
  | .error cause => .error (.read path cause)
  | .ok bytes =>
    match utf8Text? bytes with
    | none => .error (.read path .invalidUtf8)
    | some text =>
      match ofText? text with
      | none => .error (.parse path)
      | some config => .ok config

section

variable {m : Type → Type} [Monad m] [Machine m]

def loadFrom (path : Path) : m (Except ConfigError Config) := do
  return ofContent path (← Machine.read path)

def saveTo (c : Config) (path : Path) : m (Except ConfigError Unit) := do
  return (← Machine.write path (utf8 c.toText)).mapError .write

end

end Config

namespace Home

variable {m : Type → Type} [Monad m] [Machine m]

/-- The user's directory. -/
def path? : m (Option Path) := do
  match ← Machine.lookup "USERPROFILE" with
  | some path => return some path
  | none => Machine.lookup "HOME"

def directoryName : String := ".termfiles"

/-- The program's directory in the user's, made when it is asked for and not there. -/
def directory? : m (Option Path) := do
  match ← path? with
  | none => return none
  | some home =>
    let directory := home.join directoryName
    if !(← Machine.exists? directory) then Machine.makeDirectories directory
    return some directory

def configPath? : m (Option Path) := do
  return (← directory?).map (·.join "config.toml")

/-- Where the log is kept: in the current directory, if the user has none. -/
def logPath : m Path := do
  match ← directory? with
  | some directory => return directory.join "termfiles.log"
  | none => return .ofString "termfiles.log"

end Home

namespace Config

variable {m : Type → Type} [Monad m] [Machine m]

/-- The user's own configuration, or the default one where there is none that can be read. -/
def load : m Config := do
  match ← Home.configPath? with
  | none => return {}
  | some path =>
    if ← Machine.exists? path then
      match ← loadFrom path with
      | .ok config => return config
      | .error _ => return {}
    else return {}

def save (c : Config) : m (Except ConfigError Unit) := do
  match ← Home.configPath? with
  | none => return .error .noPath
  | some path => c.saveTo path

end Config

end MacroDeck
