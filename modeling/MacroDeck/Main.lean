import MacroDeck.CommandLine.Run
import Std.Time.Format

namespace MacroDeck

/-- The number under which the system knows an error. It may come with its sign turned, in 32 bits. -/
def systemCode? : IO.Error → Option Nat
  | .alreadyExists _ code _ | .otherError code _ | .resourceBusy code _ | .resourceVanished code _
  | .unsupportedOperation code _ | .hardwareFault code _ | .unsatisfiedConstraints code _ | .illegalOperation code _
  | .protocolError code _ | .timeExpired code _ | .interrupted _ code _ | .noFileOrDirectory _ code _
  | .invalidArgument _ code _ | .permissionDenied _ code _ | .resourceExhausted _ code _
  | .inappropriateType _ code _ | .noSuchThing _ code _ =>
    some (if code < 0x80000000 then code.toNat else (0 - code).toNat)
  | .unexpectedEof | .userError _ => none

def IoError.ofSystem (e : IO.Error) : IoError :=
  match systemCode? e with
  | some 2 => .notFound
  | some 13 => .permissionDenied
  | some 17 => .alreadyExists
  | some 20 => .notADirectory
  | some 21 => .isADirectory
  | some 36 => .nameTooLong
  | _ => .other (toString e)

/-- An action on the file at a path, which the system does not see if the path holds a NUL. -/
def atPath {α : Type} (path : Path) (action : String → IO α) : IO (Except IoError α) := do
  if path.bytes.contains 0 then return .error .nulInPath
  return (← (action path.display).toBaseIO).mapError .ofSystem

def timeStamp : IO String := do
  return (Std.Time.DateTime.ofTimestampWithZone (← Std.Time.Timestamp.now) .UTC).toISO8601String

/-- Programs cannot be started from here; every attempt is answered as one that the system does not support. -/
instance : Machine IO where
  lookup name := return (← IO.getEnv name).map .ofString
  read path := return (← atPath path fun p => IO.FS.readBinFile p).map (·.data.toList)
  write path content := atPath path fun p => IO.FS.writeBinFile p content.toByteArray
  exists? path := return (← atPath path fun p => IO.FS.Handle.mk p .read).toBool
  makeDirectories path := do discard <| atPath path fun p => IO.FS.createDirAll p
  openLog path := return (← atPath path fun p => IO.FS.Handle.mk p .append).toBool
  note path event := do
    discard <| atPath path fun p => do
      (← IO.FS.Handle.mk p .append).putStrLn s!"{← timeStamp} {event.line}"
  start _ := return .error (.other "Function not implemented (os error 38)")
  print text := IO.print text
  report text := IO.eprint text

end MacroDeck

def main (arguments : List String) : IO UInt32 := do
  return (← MacroDeck.run arguments).toUInt32
