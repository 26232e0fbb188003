import MacroDeck.MacroSet

namespace MacroDeck

/-- What a run needs of the system it runs on. -/
class Machine (m : Type → Type) where
  /-- The value of an environment variable, if it is set. -/
  lookup : String → m (Option Path)
  read : Path → m (Except IoError Bytes)
  /-- Replaces or creates a file. -/
  write : Path → Bytes → m (Except IoError Unit)
  exists? : Path → m Bool
  /-- Makes the directory at the path and those above it, as far as it can. -/
  makeDirectories : Path → m Unit
  /-- Makes sure that there is a log file to append to, and tells whether there is. -/
  openLog : Path → m Bool
  /-- Appends an event to the log file. -/
  note : Path → Event → m Unit
  /-- Starts a program by its name and arguments and gives the number of its process. -/
  start : List String → m (Except IoError Nat)
  print : String → m Unit
  report : String → m Unit

inductive HostCall where
  /-- The set takes the place of the one in use. -/
  | install (set : MacroSet)
  /-- A new session runs the program named first with the other arguments. -/
  | launch (args : List String)
deriving DecidableEq

inductive HostError where
  | emptyCommand
  | spawn (program : String) (cause : IoError)
  | rejected (message : String)
  | output (cause : IoError)
deriving DecidableEq, Repr

def HostError.message : HostError → String
  | .emptyCommand => "Cannot start a session with an empty argument list"
  | .spawn program cause => s!"Failed to spawn {program}: {cause.message}"
  | .rejected message => s!"Host rejected request: {message}"
  | .output cause => s!"Failed to write host output: {cause.message}"

/-- The answer to one call, with the host as the call leaves it. -/
structure Reply (σ : Type) where
  events : List Event := []
  result : Except HostError Unit
  host : σ

/-- A host whose states are `σ`, on a machine that works in `m`. -/
abbrev Host (m : Type → Type) (σ : Type) := HostCall → σ → m (Reply σ)

/-- The macro set in use and the number of sets installed so far. -/
structure MacroStore where
  current : Option MacroSet := none
  installs : Nat := 0
deriving DecidableEq

def MacroStore.install (s : MacroStore) (set : MacroSet) : MacroStore :=
  ⟨some set, s.installs + 1⟩

namespace HostCall

/-- A slot as a dry run shows it. -/
def describeSlot (s : Slot) : String :=
  s!"  {alignRight 3 (toString s.index)} {quoted s.name} = {quoted s.contents}\n"

/-- The call as a dry run shows it. -/
def describe : HostCall → String
  | install set => s!"install macro set ({set.size} macros)\n" ++ String.join (set.slots.map describeSlot)
  | launch args => s!"start session {quotedList args}\n"

end HostCall

/-- Sessions are processes of the machine, and the macro set in use is held in memory. -/
structure LiveHost where
  store : MacroStore := {}
  /-- The numbers of the processes started, in order. -/
  started : List Nat := []
deriving DecidableEq

def LiveHost.host {m : Type → Type} [Monad m] [Machine m] : Host m LiveHost
  | .install set, h =>
    pure { events := [.installing set.size], result := .ok (), host := { h with store := h.store.install set } }
  | .launch [], h => pure { result := .error .emptyCommand, host := h }
  | .launch (program :: args), h => do
    match ← Machine.start (program :: args) with
    | .error cause => pure { result := .error (.spawn program cause), host := h }
    | .ok pid =>
      pure
        { events := [.started (program :: args) pid]
          result := .ok ()
          host := { h with started := h.started ++ [pid] } }

end MacroDeck
