import MacroDeck.CommandLine.Options
import MacroDeck.Config.File
import MacroDeck.Host.Recorder

namespace MacroDeck

def versionText : String :=
  s!"{programName} {programVersion}\n"

def helpText : String :=
  s!"{programName} {programVersion} - Open macro, script and session files\n\n" ++
  "Usage: termfiles [OPTIONS] <FILE>...\n\n" ++
  "File types (by extension):\n" ++
  "  .macros               Replace the active macro set\n" ++
  "  .session              Start the session's \"command\"\n" ++
  "  (other)               Run the file as a session\n\n" ++
  "Options:\n" ++
  "  -n, --dry-run         Print host calls instead of performing them\n" ++
  "  -s, --skip-invalid    Skip macro keys that do not decode\n" ++
  "  -c, --config <PATH>   Use a specific config file\n" ++
  "  -v, --version         Show version\n" ++
  "  -h, --help            Show this help\n\n" ++
  "Configuration: ~/.termfiles/config.toml\n" ++
  "Log file:      ~/.termfiles/termfiles.log\n"

/-- How the error of a configuration file that was asked for is told, with its cause where it has one. -/
def ConfigError.report (e : ConfigError) : String :=
  let cause :=
    match e with
    | read _ cause => s!"\n\nCaused by:\n    {cause.message}"
    | _ => ""
  s!"Error: {e.message}{cause}\n"

/-- The line that tells how the opening of a file ended. -/
def reportLine (path : Path) : Except OpenError Opened → String
  | .ok (.macros set) => s!"{path.display}: {set.size} macros installed\n"
  | .ok (.session session) => s!"{path.display}: started {quotedList session.command}\n"
  | .ok (.script _) => s!"{path.display}: started script\n"
  | .error e => s!"{path.display}: {e.message}\n"

def tableRow (s : Slot) : String :=
  s!"{alignRight 3 (toString s.index)}  {alignLeft 12 s.name} {s.contents}\n"

def table (set : MacroSet) : String :=
  String.join (set.slots.map tableRow)

/-- A log that is kept: its file, and how much goes into it. -/
structure Journal where
  path : Path
  verbosity : Verbosity
deriving DecidableEq, Repr

section

variable {m : Type → Type} [Monad m] [Machine m]

/-- The user's log, if there is a file to keep it in. -/
def Journal.open? (level : String) : m (Option Journal) := do
  let path ← Home.logPath
  if ← Machine.openLog path then return some ⟨path, .ofName level⟩ else return none

def Journal.note (j : Journal) (events : List Event) : m Unit :=
  (events.filter j.verbosity.admits).forM (Machine.note j.path)

def noteIn (journal : Option Journal) (events : List Event) : m Unit :=
  journal.forM (·.note events)

/-- The files opened one after the other on one host, each reported; gives the number of failures and the host as it
is left. -/
def openAll {σ : Type} (opener : Opener) (journal : Option Journal) (host : Host m σ) :
    List Path → σ → m (Nat × σ)
  | [], s => return (0, s)
  | path :: rest, s => do
    let opening ← opener.open path host s
    noteIn journal opening.events
    Machine.report (reportLine path opening.result)
    let (failures, s) ← openAll opener journal host rest opening.host
    return (if opening.result.toBool then failures else failures + 1, s)

/-- The files opened on the host that the options ask for, and then what there is to print: in a dry run the calls,
otherwise the macro set in use. Gives the number of failures. -/
def openAndPrint (options : Options) (opener : Opener) (journal : Option Journal) : m Nat := do
  let paths := options.files.map Path.ofString
  if options.dryRun then
    let (failures, transcript) ← openAll opener journal Transcript.host paths {}
    Machine.print (lossyText transcript.written)
    return failures
  else
    let (failures, host) ← openAll opener journal LiveHost.host paths {}
    Machine.print ((host.store.current.map table).getD "")
    return failures

/-- The files opened with a configuration; gives the exit status. -/
def runFiles (options : Options) (config : Config) : m Nat := do
  let journal ← Journal.open? config.logLevel
  noteIn journal [.opening options.files.length]
  let failures ← openAndPrint options config.opener journal
  noteIn journal [.finished failures]
  return if failures = 0 then 0 else 1

/-- The configuration that the options ask for. -/
def Options.config (options : Options) : m (Except ConfigError Config) := do
  let loaded ← match options.configPath with
    | some path => Config.loadFrom (.ofString path)
    | none => pure (.ok (← Config.load))
  return loaded.map fun config => if options.skipInvalid then { config with policy := .skip } else config

/-- A run of the program with the arguments after its name; gives the exit status. -/
def run (arguments : List String) : m Nat := do
  match Request.ofArguments arguments with
  | .help =>
    Machine.report helpText
    return 0
  | .version =>
    Machine.report versionText
    return 0
  | .invalid error =>
    Machine.report s!"Error: {error.message}\nUse --help for usage information\n"
    return 2
  | .files options =>
    match ← options.config with
    | .error e =>
      Machine.report e.report
      return 1
    | .ok config => runFiles options config

end

end MacroDeck
