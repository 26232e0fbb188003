import MacroDeck.KeyValues
import MacroDeck.Path

namespace MacroDeck

/-- The separator ends the key at its first occurrence. A line that begins with one of the comment prefixes says
nothing; an empty one marks no line. -/
structure Grammar where
  separator : Char := '='
  commentPrefixes : List String := ["#"]
  stripQuotes : Bool := true
deriving DecidableEq, Repr

/-- Why a line with the given number cannot be read. -/
inductive LineError where
  | missingSeparator (line : Nat) (separator : Char)
  | emptyKey (line : Nat)
deriving DecidableEq, Repr

def LineError.message : LineError → String
  | .missingSeparator line separator => s!"line {line}: expected `key {separator} value`"
  | .emptyKey line => s!"line {line}: empty key"

namespace Grammar

def isComment (g : Grammar) (trimmed : List Char) : Bool :=
  g.commentPrefixes.any fun p => !p.isEmpty && p.toList.isPrefixOf trimmed

/-- A value that begins and ends with a double quote, not with one and the same, loses both. -/
def unquote : List Char → List Char
  | '"' :: rest => if rest.getLast? = some '"' then rest.dropLast else '"' :: rest
  | value => value

def value (g : Grammar) (trimmed : List Char) : List Char :=
  if g.stripQuotes then unquote trimmed else trimmed

/-- The key and the value of a line, or nothing for a blank line and a comment. -/
def readLine (g : Grammar) (number : Nat) (line : List Char) : Except LineError (Option (String × String)) :=
  let trimmed := trim line
  if trimmed.isEmpty || g.isComment trimmed then .ok none
  else match trimmed.dropWhile (· != g.separator) with
    | [] => .error (.missingSeparator number g.separator)
    | _ :: after =>
      let key := trim (trimmed.takeWhile (· != g.separator))
      if key.isEmpty then .error (.emptyKey number)
      else .ok (some (String.ofList key, String.ofList (g.value (trim after))))

end Grammar

/-- Why a document cannot be read: one of its lines, or the bytes it is made of. -/
inductive DocumentError where
  | line (error : LineError)
  | io (error : IoError)
deriving DecidableEq, Repr

namespace Grammar

/-- The pairs of the lines, counted from the given number, inserted into the map. -/
def readLines (g : Grammar) : Nat → List (List Char) → KeyValues → Except LineError KeyValues
  | _, [], m => .ok m
  | number, line :: rest, m => do
    match ← g.readLine number line with
    | none => g.readLines (number + 1) rest m
    | some (key, value) => g.readLines (number + 1) rest (m.insert key value)

def readText (g : Grammar) (text : String) : Except LineError KeyValues :=
  g.readLines 1 (text.toList.splitOn '\n') .empty

/-- As `readLines`, with each line decoded when its turn comes. -/
def readByteLines (g : Grammar) : Nat → List Bytes → KeyValues → Except DocumentError KeyValues
  | _, [], m => .ok m
  | number, line :: rest, m =>
    match utf8Text? line with
    | none => .error (.io .invalidUtf8)
    | some text =>
      match g.readLine number text.toList with
      | .error e => .error (.line e)
      | .ok none => g.readByteLines (number + 1) rest m
      | .ok (some (key, value)) => g.readByteLines (number + 1) rest (m.insert key value)

def newlineByte : UInt8 := 0x0A

def readBytes (g : Grammar) (bytes : Bytes) : Except DocumentError KeyValues :=
  g.readByteLines 1 (bytes.splitOn newlineByte) .empty

end Grammar

end MacroDeck
