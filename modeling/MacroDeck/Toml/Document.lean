import MacroDeck.Toml.Quotation
import MacroDeck.Toml.Scalar

namespace MacroDeck.Toml

/-- Keys have fewer parts than this, and values lie within fewer brackets. -/
def depthLimit : Nat := 80

def isBareKeyChar (c : Char) : Bool :=
  c.isAlphanum || c == '_' || c == '-'

/-- One part of a key: quoted on one line, or bare. -/
def readKeyPart : Reader String
  | '"' :: cs => (readBasic cs).map fun (t, rest) => (.ofList t, rest)
  | '\x27' :: cs => (readLiteral cs).map fun (t, rest) => (.ofList t, rest)
  | cs =>
    if (cs.takeWhile isBareKeyChar).isEmpty then none
    else some (.ofList (cs.takeWhile isBareKeyChar), cs.dropWhile isBareKeyChar)

/-- The parts of a key, as many as the bound allows, with the spaces about them. -/
def readKeyParts : Nat → Reader (List String)
  | 0, _ => none
  | bound + 1, cs => do
    let (part, rest) ← readKeyPart (skipSpaces cs)
    match skipSpaces rest with
    | '.' :: rest =>
      let (parts, rest) ← readKeyParts bound rest
      return (part :: parts, rest)
    | rest => return ([part], rest)

/-- A key as its path and its last part. -/
def readKey (cs : List Char) : Option ((List String × String) × List Char) := do
  let (parts, rest) ← readKeyParts (depthLimit - 1) cs
  return ((parts.dropLast, ← parts.getLast?), rest)

/-- The items of an array and the bracket that closes it, from the start of an item. Each item takes a character, so
the length of the text bounds their number. -/
def readItems (value : Reader Item) : Nat → Reader (List Item)
  | 0, _ => none
  | bound + 1, cs => do
    let (item, rest) ← value cs
    match ← skipGaps rest with
    | ']' :: rest => return ([item], rest)
    | ',' :: rest =>
      match ← skipGaps rest with
      | ']' :: rest => return ([item], rest)
      | rest =>
        let (items, rest) ← readItems value bound rest
        return (item :: items, rest)
    | _ => none

/-- An array, after the bracket that opens it. -/
def readArray (value : Reader Item) (cs : List Char) : Option (Item × List Char) := do
  match ← skipGaps cs with
  | ']' :: rest => return (.array [], rest)
  | rest =>
    let (items, rest) ← readItems value rest.length rest
    return (.array items, rest)

/-- A key, the equals sign and the value, with the spaces about them. -/
def readPair (value : Reader Item) (cs : List Char) : Option ((List String × String × Item) × List Char) := do
  let ((path, key), rest) ← readKey cs
  match rest with
  | '=' :: rest =>
    let (item, rest) ← value (skipSpaces rest)
    return ((path, key, item), skipSpaces rest)
  | _ => none

def readPairs (value : Reader Item) : Nat → Reader (List (List String × String × Item))
  | 0, _ => none
  | bound + 1, cs => do
    let (pair, rest) ← readPair value cs
    match rest with
    | '\x7d' :: rest => return ([pair], rest)
    | ',' :: rest =>
      let (pairs, rest) ← readPairs value bound rest
      return (pair :: pairs, rest)
    | _ => none

/-- A table in braces, after the brace that opens it. -/
def readInlineTable (value : Reader Item) (cs : List Char) : Option (Item × List Char) := do
  match skipSpaces cs with
  | '\x7d' :: rest => return (.table .inline [], rest)
  | rest =>
    let (pairs, rest) ← readPairs value rest.length rest
    return (← inlineTable pairs, rest)

/-- A value within brackets and braces to the given depth. -/
def readValue : Nat → Reader Item
  | depth, '"' :: cs => readText depth ('"' :: cs)
  | depth, '\x27' :: cs => readText depth ('\x27' :: cs)
  | depth + 1, '[' :: cs => readArray (readValue depth) cs
  | depth + 1, '\x7b' :: cs => readInlineTable (readValue depth) cs
  | _, cs => readScalar cs
where
  readText (_ : Nat) (cs : List Char) : Option (Item × List Char) :=
    (readString cs).map fun (text, rest) => (.string text, rest)

/-- The statements of the lines, of which the length of the text bounds the number. -/
def readStatements : Nat → List Char → Option (List Statement)
  | 0, _ => none
  | bound + 1, cs =>
    match skipSpaces cs with
    | [] => some []
    | '#' :: rest => do readStatements bound (← lineEnd? ('#' :: rest))
    | '\n' :: rest => readStatements bound rest
    | '\r' :: '\n' :: rest => readStatements bound rest
    | '[' :: '[' :: rest => do
      let ((path, key), rest) ← readKey rest
      match rest with
      | ']' :: ']' :: rest => return .element path key :: (← readStatements bound (← lineEnd? rest))
      | _ => none
    | '[' :: rest => do
      let ((path, key), rest) ← readKey rest
      match rest with
      | ']' :: rest => return .header path key :: (← readStatements bound (← lineEnd? rest))
      | _ => none
    | rest => do
      let ((path, key, item), rest) ← readPair (readValue (depthLimit - 1)) rest
      return .pair path key item :: (← readStatements bound (← lineEnd? rest))

def byteOrderMark : Char := '\uFEFF'

/-- The entries of a document. A byte order mark may stand before it. -/
def read (text : String) : Option Entries := do
  let cs := text.toList
  let cs := if cs.head? = some byteOrderMark then cs.tail else cs
  entriesOf (← readStatements (cs.length + 1) cs)

end MacroDeck.Toml
