import MacroDeck.MacroKey
import MacroDeck.Path

namespace MacroDeck

inductive Level where
  | error
  | warn
  | info
  | debug
  | trace
deriving DecidableEq, Repr

/-- How far a level lies from the most severe one. -/
def Level.depth : Level → Nat
  | .error => 1
  | .warn => 2
  | .info => 3
  | .debug => 4
  | .trace => 5

def Level.label : Level → String
  | .error => "ERROR"
  | .warn => " WARN"
  | .info => " INFO"
  | .debug => "DEBUG"
  | .trace => "TRACE"

inductive Event where
  | opening (files : Nat)
  | finished (failures : Nat)
  | loaded (macros : Nat) (path : Path)
  | startingScript (path : Path)
  | ignoredSetting (key : String) (path : Path)
  | skippedKey (error : KeyError)
  | redefined (slot : Nat) (old : String)
  | installing (macros : Nat)
  | started (args : List String) (pid : Nat)
deriving DecidableEq, Repr

def programName : String := "termfiles"

def programVersion : String := "0.1.0"

namespace Event

def level : Event → Level
  | opening _ | finished _ | loaded _ _ | installing _ | started _ _ => .info
  | startingScript _ | ignoredSetting _ _ | redefined _ _ => .debug
  | skippedKey _ => .warn

/-- The part of the program that the event comes from. -/
def source : Event → String
  | opening _ | finished _ => programName
  | loaded _ _ | startingScript _ | ignoredSetting _ _ => programName ++ "::open"
  | skippedKey _ | redefined _ _ => programName ++ "::macros"
  | installing _ | started _ _ => programName ++ "::host"

def message : Event → String
  | opening files => s!"{programName} {programVersion} opening {files} files"
  | finished failures => s!"Done, {failures} failures"
  | loaded macros path => s!"Loaded {macros} macros from {path.display}"
  | startingScript path => s!"Starting script session {path.display}"
  | ignoredSetting key path => s!"Ignoring session setting {quoted key} in {path.display}"
  | skippedKey error => s!"Skipping {error.message}"
  | redefined slot old => s!"Macro {slot} redefined (was {quoted old})"
  | installing macros => s!"Installing macro set with {macros} macros"
  | started args pid => s!"Started session {quotedList args} (pid {pid})"

/-- The event as the log shows it, without the time. A path in it cannot steer the terminal of who reads the log. -/
def line (e : Event) : String :=
  s!"{e.level.label} {e.source}: {inert e.message}"

end Event

/-- A log takes the events down to a depth; at depth zero it takes none. -/
structure Verbosity where
  depth : Nat
deriving DecidableEq, Repr

namespace Verbosity

def admits (v : Verbosity) (e : Event) : Bool :=
  e.level.depth ≤ v.depth

/-- The name of a level in any case of its letters. A text that names no level admits no event. -/
def ofName (name : String) : Verbosity :=
  match name.map Char.toLower with
  | "error" => ⟨Level.error.depth⟩
  | "warn" => ⟨Level.warn.depth⟩
  | "info" => ⟨Level.info.depth⟩
  | "debug" => ⟨Level.debug.depth⟩
  | "trace" => ⟨Level.trace.depth⟩
  | _ => ⟨0⟩

end Verbosity

end MacroDeck
