import MacroDeck.Toml.Quotation

namespace MacroDeck.Toml

/-- A control character that only an escape can write, even on several lines. -/
def needsEscape (c : Char) : Bool :=
  !isText c && c != '\n'

/-- Whether three of the character follow one another. -/
def hasTriple (quote : Char) : List Char → Bool
  | a :: b :: c :: cs => (a == quote && b == quote && c == quote) || hasTriple quote (b :: c :: cs)
  | _ => false

inductive StringForm where
  | basic
  | literal
  | multiBasic
  | multiLiteral
deriving DecidableEq, Repr

/-- The first form in this order that needs no escape for a quote, a backslash or a line break; where there is none, a
form in double quotes. -/
def StringForm.of (cs : List Char) : StringForm :=
  let controls := cs.any needsEscape
  if !controls && !cs.contains '\\' && !cs.contains '"' && !cs.contains '\n' then .basic
  else if !controls && !cs.contains singleQuote && !cs.contains '\n' then .literal
  else if !controls && !cs.contains '\\' && !hasTriple '"' cs then .multiBasic
  else if !controls && !hasTriple singleQuote cs then .multiLiteral
  else if cs.contains '\n' then .multiBasic
  else .basic

/-- A hexadecimal digit, in upper case. -/
def upperHexDigit (n : Nat) : Char :=
  (Nat.digitChar n).toUpper

/-- The escape of a character that double quotes cannot hold as it is, if there is need of one. -/
def escape? (c : Char) : Option (List Char) :=
  match c with
  | '\x08' => some ['\\', 'b']
  | '\t' => some ['\\', 't']
  | '\n' => some ['\\', 'n']
  | '\x0C' => some ['\\', 'f']
  | '\r' => some ['\\', 'r']
  | '\\' => some ['\\', '\\']
  | c =>
    if isText c then none
    else some ['\\', 'u', '0', '0', upperHexDigit (c.toNat / 16), upperHexDigit (c.toNat % 16)]

/-- The text between single double quotes. -/
def basicBody : List Char → List Char
  | [] => []
  | c :: cs => (if c = '"' then ['\\', '"'] else (escape? c).getD [c]) ++ basicBody cs

/-- The text between triple double quotes, after so many double quotes in a row. A third one is escaped. -/
def multiBasicBody : Nat → List Char → List Char
  | _, [] => []
  | quotes, c :: cs =>
    if c = '"' then
      if quotes < 2 then '"' :: multiBasicBody (quotes + 1) cs else '\\' :: '"' :: multiBasicBody 0 cs
    else if c = '\n' then '\n' :: multiBasicBody 0 cs
    else (escape? c).getD [c] ++ multiBasicBody 0 cs

/-- A text with line breaks begins on the line after the quotes. -/
def firstBreak (cs : List Char) : List Char :=
  if cs.contains '\n' then ['\n'] else []

def writeString (s : String) : List Char :=
  let cs := s.toList
  match StringForm.of cs with
  | .basic => '"' :: basicBody cs ++ ['"']
  | .literal => singleQuote :: cs ++ [singleQuote]
  | .multiBasic => List.replicate 3 '"' ++ firstBreak cs ++ multiBasicBody 0 cs ++ List.replicate 3 '"'
  | .multiLiteral => List.replicate 3 singleQuote ++ firstBreak cs ++ cs ++ List.replicate 3 singleQuote

def writeStrings : List String → List Char
  | [] => ['[', ']']
  | [s] => '[' :: writeString s ++ [']']
  | items => '[' :: '\n' :: items.flatMap (fun s => "    ".toList ++ writeString s ++ [',', '\n']) ++ [']']

/-- The value of a setting. -/
inductive Setting where
  | text (value : String)
  | texts (values : List String)
  | flag (value : Bool)
deriving DecidableEq, Repr

def Setting.write : Setting → List Char
  | text value => writeString value
  | texts values => writeStrings values
  | flag value => if value then "true".toList else "false".toList

/-- A line for each setting. -/
def writeSettings (settings : List (String × Setting)) : List Char :=
  settings.flatMap fun (name, value) => name.toList ++ " = ".toList ++ value.write ++ ['\n']

/-- A header and the settings under it, after a blank line. -/
def writeSection (name : String) (settings : List (String × Setting)) : List Char :=
  "\n[".toList ++ name.toList ++ "]\n".toList ++ writeSettings settings

end MacroDeck.Toml
