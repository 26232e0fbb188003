import MacroDeck.Toml.Lexeme

namespace MacroDeck.Toml

def singleQuote : Char := '\x27'

/-- Where a reader of escapes stands: in the text, after a backslash, or among the digits of a code point. -/
inductive EscapeState where
  | text
  | begun
  | digits (missing : Nat) (value : Nat)
  /-- After a backslash that spaces separate from the end of its line. -/
  | lineEnd
  /-- On the lines after such a one, as long as they are blank. -/
  | blankLines

/-- What a letter after a backslash stands for. -/
def escapedChar? : Char → Option Char
  | 'b' => some '\x08'
  | 't' => some '\t'
  | 'n' => some '\n'
  | 'f' => some '\x0C'
  | 'r' => some '\r'
  | '"' => some '"'
  | '\\' => some '\\'
  | _ => none

/-- How many digits of a code point follow a letter after a backslash. -/
def codeDigits? : Char → Option Nat
  | 'u' => some 4
  | 'U' => some 8
  | _ => none

/-- The character put before what is read next. -/
def emit (c : Char) (r : Option (List Char × List Char)) : Option (List Char × List Char) :=
  r.map fun (text, rest) => (c :: text, rest)

/-- The next state after one more character of an escape, with the character that the escape stands for if this
completes it. -/
def escapeStep : EscapeState → Char → Option (Option Char × EscapeState)
  | .begun, c =>
    match escapedChar? c with
    | some e => some (some e, .text)
    | none => (codeDigits? c).map fun n => (none, .digits n 0)
  | .digits missing value, c => do
    let value := value * 16 + (← hexValue? c)
    if missing ≤ 1 then
      guard value.isValidChar
      return (some (Char.ofNat value), .text)
    else return (none, .digits (missing - 1) value)
  | _, _ => none

def readBasicFrom : EscapeState → Reader (List Char)
  | _, [] => none
  | .text, c :: cs =>
    if c = '"' then some ([], cs)
    else if c = '\\' then readBasicFrom .begun cs
    else if isText c then emit c (readBasicFrom .text cs)
    else none
  | state, c :: cs =>
    match escapeStep state c with
    | none => none
    | some (some e, next) => emit e (readBasicFrom next cs)
    | some (none, next) => readBasicFrom next cs

def readLiteral : Reader (List Char)
  | [] => none
  | c :: cs =>
    if c = singleQuote then some ([], cs)
    else if isText c then emit c (readLiteral cs)
    else none

/-- The quotes that still belong to a text after the three that close it: two at most. -/
def closingQuotes (quote : Char) : List Char → List Char × List Char
  | a :: b :: cs =>
    if a = quote then if b = quote then ([a, b], cs) else ([a], b :: cs) else ([], a :: b :: cs)
  | [a] => if a = quote then ([a], []) else ([], [a])
  | [] => ([], [])

def readMultiBasicFrom : EscapeState → Reader (List Char)
  | _, [] => none
  | .text, '"' :: '"' :: '"' :: cs => some (closingQuotes '"' cs)
  | .text, '\r' :: '\n' :: cs => emit '\n' (readMultiBasicFrom .text cs)
  | .text, c :: cs =>
    if c = '\\' then readMultiBasicFrom .begun cs
    else if c = '\n' ∨ isText c then emit c (readMultiBasicFrom .text cs)
    else none
  | .begun, '\r' :: '\n' :: cs => readMultiBasicFrom .blankLines cs
  | .begun, '\n' :: cs => readMultiBasicFrom .blankLines cs
  | .begun, ' ' :: cs => readMultiBasicFrom .lineEnd cs
  | .begun, '\t' :: cs => readMultiBasicFrom .lineEnd cs
  | .lineEnd, '\r' :: '\n' :: cs => readMultiBasicFrom .blankLines cs
  | .lineEnd, '\n' :: cs => readMultiBasicFrom .blankLines cs
  | .lineEnd, c :: cs => if isSpace c then readMultiBasicFrom .lineEnd cs else none
  | .blankLines, '"' :: '"' :: '"' :: cs => some (closingQuotes '"' cs)
  | .blankLines, '\r' :: '\n' :: cs => readMultiBasicFrom .blankLines cs
  | .blankLines, c :: cs =>
    if c = '\n' ∨ isSpace c then readMultiBasicFrom .blankLines cs
    else if c = '\\' then readMultiBasicFrom .begun cs
    else if isText c then emit c (readMultiBasicFrom .text cs)
    else none
  | state, c :: cs =>
    match escapeStep state c with
    | none => none
    | some (some e, next) => emit e (readMultiBasicFrom next cs)
    | some (none, next) => readMultiBasicFrom next cs

def readMultiLiteral : Reader (List Char)
  | '\x27' :: '\x27' :: '\x27' :: cs => some (closingQuotes singleQuote cs)
  | '\r' :: '\n' :: cs => emit '\n' (readMultiLiteral cs)
  | c :: cs => if c = '\n' ∨ isText c then emit c (readMultiLiteral cs) else none
  | [] => none

/-- A line break right after the three quotes is not part of the text. -/
def dropFirstBreak : List Char → List Char
  | '\n' :: cs => cs
  | '\r' :: '\n' :: cs => cs
  | cs => cs

/-- A string in double quotes, after the first of them. -/
def readBasic (cs : List Char) : Option (List Char × List Char) :=
  readBasicFrom .text cs

/-- A string of any form. -/
def readString : Reader String
  | '"' :: '"' :: '"' :: cs => (readMultiBasicFrom .text (dropFirstBreak cs)).map fun (t, rest) => (.ofList t, rest)
  | '\x27' :: '\x27' :: '\x27' :: cs => (readMultiLiteral (dropFirstBreak cs)).map fun (t, rest) => (.ofList t, rest)
  | '"' :: cs => (readBasic cs).map fun (t, rest) => (.ofList t, rest)
  | '\x27' :: cs => (readLiteral cs).map fun (t, rest) => (.ofList t, rest)
  | _ => none

end MacroDeck.Toml
