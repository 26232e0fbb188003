namespace MacroDeck.Toml

/-- It takes characters from the front of the text and gives what is left. -/
abbrev Reader (α : Type) := List Char → Option (α × List Char)

/-- The characters of comments and strings: all but the controls, of which the tab alone is text. -/
def isText (c : Char) : Bool :=
  c == '\t' || (decide (0x20 ≤ c.toNat) && c.toNat != 0x7F)

def isSpace (c : Char) : Bool :=
  c == ' ' || c == '\t'

def skipSpaces (cs : List Char) : List Char :=
  cs.dropWhile isSpace

/-- The rest after the end of a line; the text may also end here. -/
def lineBreak? : List Char → Option (List Char)
  | [] => some []
  | '\n' :: rest => some rest
  | '\r' :: '\n' :: rest => some rest
  | _ => none

/-- The rest after a line on which nothing but spaces and a comment is left. -/
def lineEnd? (cs : List Char) : Option (List Char) :=
  match skipSpaces cs with
  | '#' :: rest => lineBreak? (rest.dropWhile isText)
  | rest => lineBreak? rest

/-- The rest after spaces, line breaks and comments, each comment on a line that ends. -/
def skipGapsFrom : Bool → List Char → Option (List Char)
  | false, [] => some []
  | true, [] => none
  | _, '\n' :: cs => skipGapsFrom false cs
  | _, '\r' :: '\n' :: cs => skipGapsFrom false cs
  | true, c :: cs => if isText c then skipGapsFrom true cs else none
  | false, c :: cs =>
    if isSpace c then skipGapsFrom false cs
    else if c == '#' then skipGapsFrom true cs
    else some (c :: cs)

def skipGaps (cs : List Char) : Option (List Char) :=
  skipGapsFrom false cs

/-- The value of a hexadecimal digit. -/
def hexValue? (c : Char) : Option Nat :=
  if c.isDigit then some (c.toNat - '0'.toNat)
  else if 'a' ≤ c ∧ c ≤ 'f' then some (c.toNat - 'a'.toNat + 10)
  else if 'A' ≤ c ∧ c ≤ 'F' then some (c.toNat - 'A'.toNat + 10)
  else none

end MacroDeck.Toml
