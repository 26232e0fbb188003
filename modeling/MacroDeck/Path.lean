import MacroDeck.Text

namespace MacroDeck

/-- The ways in which the machine refuses a request. -/
inductive IoError where
  | notFound
  | permissionDenied
  | notADirectory
  | isADirectory
  | nameTooLong
  | alreadyExists
  | nulInPath
  | nulInArgument
  | invalidUtf8
  | writeZero
  | other (text : String)
deriving DecidableEq, Repr

def IoError.message : IoError → String
  | .notFound => "No such file or directory (os error 2)"
  | .permissionDenied => "Permission denied (os error 13)"
  | .notADirectory => "Not a directory (os error 20)"
  | .isADirectory => "Is a directory (os error 21)"
  | .nameTooLong => "File name too long (os error 36)"
  | .alreadyExists => "File exists (os error 17)"
  | .nulInPath => "file name contained an unexpected NUL byte"
  | .nulInArgument => "nul byte found in provided data"
  | .invalidUtf8 => "stream did not contain valid UTF-8"
  | .writeZero => "failed to write whole buffer"
  | .other text => text

/-- A sequence of bytes in which slashes part names. -/
structure Path where
  bytes : Bytes
deriving DecidableEq, Repr

namespace Path

def slash : UInt8 := 0x2F

def dot : UInt8 := 0x2E

/-- The name by which a directory is within itself. -/
def here : Bytes := [dot]

/-- The name by which a directory holds the one above it. -/
def above : Bytes := [dot, dot]

def ofString (s : String) : Path :=
  ⟨utf8 s⟩

def display (p : Path) : String :=
  lossyText p.bytes

/-- What stands between the slashes, empty pieces left out. -/
def names (p : Path) : List Bytes :=
  (p.bytes.splitOn slash).filter (!·.isEmpty)

def isAbsolute (p : Path) : Bool :=
  p.bytes.head? == some slash

def endsInSlash (p : Path) : Bool :=
  p.bytes.getLast? == some slash

/-- The path of a name in the directory at the path. -/
def join (p : Path) (name : String) : Path :=
  if p.bytes.isEmpty || p.endsInSlash then ⟨p.bytes ++ utf8 name⟩ else ⟨p.bytes ++ slash :: utf8 name⟩

/-- The last name that is not the directory's own. -/
def lastName? (p : Path) : Option Bytes :=
  (p.names.filter (· != here)).getLast?

/-- What follows the last dot of a name, if anything stands before that dot. -/
def extension? (name : Bytes) : Option Bytes :=
  if name = above then none
  else
    let after := (name.reverse.takeWhile (· != dot)).reverse
    let stem := (name.reverse.dropWhile (· != dot)).tail
    if stem.isEmpty then none else some after

end Path

inductive FileKind where
  | macros
  | session
  | script
deriving DecidableEq, Repr

/-- The lower-case form of an ASCII letter; any other byte as it is. -/
def lowerAscii (b : UInt8) : UInt8 :=
  if 0x41 ≤ b ∧ b ≤ 0x5A then b + 0x20 else b

def FileKind.ofExtension (ext : Bytes) : FileKind :=
  if ext.map lowerAscii = utf8 "macros" then .macros
  else if ext.map lowerAscii = utf8 "session" then .session
  else .script

def Path.kind (p : Path) : FileKind :=
  match p.lastName?.bind Path.extension? with
  | some ext => .ofExtension ext
  | none => .script

end MacroDeck
