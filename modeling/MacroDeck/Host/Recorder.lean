import MacroDeck.Host

namespace MacroDeck

/-- What has been written, and how many bytes there is room for in all. -/
structure Transcript where
  written : Bytes := []
  limit : Option Nat := none
deriving DecidableEq

namespace Transcript

/-- Whether that many bytes fit. -/
def holds (t : Transcript) (size : Nat) : Bool :=
  t.limit.all (size ≤ ·)

/-- The bytes added as far as there is room. -/
def write (t : Transcript) (bytes : Bytes) : Transcript :=
  let all := t.written ++ bytes
  { t with written := match t.limit with
      | none => all
      | some limit => all.take limit }

/-- A call is written down, cut where the room ends. An empty command is refused and leaves no trace. -/
def perform (call : HostCall) (t : Transcript) : Reply Transcript :=
  if call = .launch [] then { result := .error .emptyCommand, host := t }
  else
    let bytes := utf8 call.describe
    { result := if t.holds (t.written.length + bytes.length) then .ok () else .error (.output .writeZero)
      host := t.write bytes }

def host {m : Type → Type} [Monad m] : Host m Transcript :=
  fun call t => pure (perform call t)

end Transcript

/-- A host that performs nothing and remembers what it is asked for, unless it is told to refuse. -/
structure Recorder where
  store : MacroStore := {}
  sessions : List (List String) := []
  refusal : Option String := none
deriving DecidableEq

/-- While it refuses, the recorder stays as it is. -/
def Recorder.perform : HostCall → Recorder → Reply Recorder
  | call, r =>
    match r.refusal with
    | some message => { result := .error (.rejected message), host := r }
    | none =>
      match call with
      | .install set =>
        { events := [.installing set.size], result := .ok (), host := { r with store := r.store.install set } }
      | .launch args => { result := .ok (), host := { r with sessions := r.sessions ++ [args] } }

def Recorder.host {m : Type → Type} [Monad m] : Host m Recorder :=
  fun call r => pure (perform call r)

end MacroDeck
