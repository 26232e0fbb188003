import MacroDeck.Grammar
import MacroDeck.Host

namespace MacroDeck

def commandKey : String := "command"

/-- The settings are the pairs of all other keys, which no host applies yet. -/
structure Session where
  command : List String
  settings : List (String × String)
deriving DecidableEq, Repr

/-- The command is the words of its value. A description without the key, or with a value of no words, describes no
session. -/
def Session.ofKeyValues? (m : KeyValues) : Option Session := do
  let value ← m.get? commandKey
  let command := (words value.toList).map String.ofList
  guard !command.isEmpty
  return ⟨command, m.pairs.filter (·.1 != commandKey)⟩

/-- Why a file asks nothing of the host. -/
inductive FileError where
  | io (path : Path) (cause : IoError)
  | line (error : LineError)
  | key (error : KeyError)
  | noMacros (path : Path)
  | missingCommand (path : Path)
deriving DecidableEq, Repr

def FileError.message : FileError → String
  | io path cause => s!"Failed to read {path.display}: {cause.message}"
  | line error => s!"Malformed input: {error.message}"
  | key error => s!"Malformed input: {error.message}"
  | noMacros path => s!"No macro definitions found in {path.display}"
  | missingCommand path => s!"No \"command\" was found in {path.display}"

inductive OpenError where
  | file (error : FileError)
  | host (error : HostError)
deriving DecidableEq, Repr

def OpenError.message : OpenError → String
  | file error => error.message
  | host error => error.message

/-- What was opened. -/
inductive Opened where
  | macros (set : MacroSet)
  | session (session : Session)
  | script (path : Path)
deriving DecidableEq

/-- What a file comes to: the events of reading it, and the call to make with the value to give once it succeeds. -/
structure Plan (α : Type) where
  events : List Event := []
  result : Except FileError (HostCall × α)

def Plan.map {α β : Type} (f : α → β) (p : Plan α) : Plan β :=
  ⟨p.events, p.result.map fun (call, value) => (call, f value)⟩

/-- The outcome of an opening, with all its events and the host as it is left. -/
structure Opening (σ α : Type) where
  events : List Event
  result : Except OpenError α
  host : σ

/-- The planned call is made, if there is one. -/
def Plan.carryOut {m : Type → Type} {σ α : Type} [Monad m] (p : Plan α) (host : Host m σ) (s : σ) :
    m (Opening σ α) := do
  match p.result with
  | .error e => pure ⟨p.events, .error (.file e), s⟩
  | .ok (call, value) =>
    let reply ← host call s
    match reply.result with
    | .ok () => pure ⟨p.events ++ reply.events, .ok value, reply.host⟩
    | .error e => pure ⟨p.events ++ reply.events, .error (.host e), reply.host⟩

structure Opener where
  grammar : Grammar := {}
  policy : KeyPolicy := .strict
  naming : Naming := {}
deriving DecidableEq, Repr

namespace Opener

def readPairs (o : Opener) (path : Path) : Except IoError Bytes → Except FileError KeyValues
  | .error cause => .error (.io path cause)
  | .ok bytes =>
    match o.grammar.readBytes bytes with
    | .ok m => .ok m
    | .error (.io cause) => .error (.io path cause)
    | .error (.line error) => .error (.line error)

/-- The set of a macro file is built in full before it is installed. -/
def planMacros (o : Opener) (path : Path) (content : Except IoError Bytes) : Plan MacroSet :=
  match o.readPairs path content with
  | .error e => { result := .error e }
  | .ok m =>
    if m.hasMacroKey then
      match MacroSet.ofKeyValues o.policy o.naming m with
      | (events, .error e) => ⟨events, .error (.key e)⟩
      | (events, .ok set) =>
        if set.isEmpty then ⟨events, .error (.noMacros path)⟩
        else ⟨events ++ [.loaded set.size path], .ok (.install set, set)⟩
    else { result := .error (.noMacros path) }

def planSession (o : Opener) (path : Path) (content : Except IoError Bytes) : Plan Session :=
  match o.readPairs path content with
  | .error e => { result := .error e }
  | .ok m =>
    match Session.ofKeyValues? m with
    | none => { result := .error (.missingCommand path) }
    | some session =>
      ⟨session.settings.map fun (key, _) => .ignoredSetting key path, .ok (.launch session.command, session)⟩

/-- A script is named to the host and never read. -/
def planScript (path : Path) : Plan Unit :=
  ⟨[.startingScript path], .ok (.launch [path.display], ())⟩

section

variable {m : Type → Type} {σ : Type} [Monad m] [Machine m]

def loadMacros (o : Opener) (path : Path) (host : Host m σ) (s : σ) : m (Opening σ MacroSet) := do
  (o.planMacros path (← Machine.read path)).carryOut host s

def loadSession (o : Opener) (path : Path) (host : Host m σ) (s : σ) : m (Opening σ Session) := do
  (o.planSession path (← Machine.read path)).carryOut host s

def loadScript (path : Path) (host : Host m σ) (s : σ) : m (Opening σ Unit) :=
  (planScript path).carryOut host s

/-- The kind of the file decides how it is opened. -/
def «open» (o : Opener) (path : Path) (host : Host m σ) (s : σ) : m (Opening σ Opened) := do
  match path.kind with
  | .macros => ((o.planMacros path (← Machine.read path)).map .macros).carryOut host s
  | .session => ((o.planSession path (← Machine.read path)).map .session).carryOut host s
  | .script => ((planScript path).map fun _ => .script path).carryOut host s

end

end Opener

end MacroDeck
