import MacroDeck.Text.Unicode

namespace MacroDeck

abbrev Bytes := List UInt8

/-- The UTF-8 form of a text. -/
def utf8 (s : String) : Bytes :=
  s.toUTF8.data.toList

/-- The text whose UTF-8 form these bytes are. -/
def utf8Text? (bytes : Bytes) : Option String :=
  String.fromUTF8? bytes.toByteArray

theorem utf8_toByteArray (s : String) : (utf8 s).toByteArray = s.toByteArray := by
  apply ByteArray.ext
  simp [utf8]

theorem utf8Text?_eq_some_iff {bytes : Bytes} {s : String} :
    utf8Text? bytes = some s ↔ bytes = utf8 s := by
  constructor
  · intro h
    unfold utf8Text? String.fromUTF8? at h
    split at h
    · obtain rfl := Option.some.inj h
      simp [utf8, String.fromUTF8]
    · contradiction
  · rintro rfl
    unfold utf8Text? String.fromUTF8?
    rw [utf8_toByteArray]
    simp [String.fromUTF8, s.isValidUTF8]

@[simp] theorem utf8Text?_utf8 (s : String) : utf8Text? (utf8 s) = some s :=
  utf8Text?_eq_some_iff.mpr rfl

/-- A character begun and not yet complete: how many bytes it lacks, the range of the next one, and the number that
its bytes so far stand for. -/
structure PartialChar where
  lacking : Nat
  low : UInt8
  high : UInt8
  code : Nat

def replacementChar : Char := '\uFFFD'

/-- A byte that begins a character. -/
def firstByte (b : UInt8) : List Char × Option PartialChar :=
  if b < 0x80 then ([Char.ofNat b.toNat], none)
  else if 0xC2 ≤ b ∧ b < 0xE0 then ([], some ⟨1, 0x80, 0xBF, b.toNat % 32⟩)
  else if 0xE0 ≤ b ∧ b < 0xF0 then
    ([], some ⟨2, if b = 0xE0 then 0xA0 else 0x80, if b = 0xED then 0x9F else 0xBF, b.toNat % 16⟩)
  else if 0xF0 ≤ b ∧ b < 0xF5 then
    ([], some ⟨3, if b = 0xF0 then 0x90 else 0x80, if b = 0xF4 then 0x8F else 0xBF, b.toNat % 8⟩)
  else ([replacementChar], none)

/-- A byte that the character begun cannot take gives that character up and begins anew. -/
def nextByte : Option PartialChar → UInt8 → List Char × Option PartialChar
  | none, b => firstByte b
  | some p, b =>
    if p.low ≤ b ∧ b ≤ p.high then
      let code := p.code * 64 + b.toNat % 64
      if p.lacking ≤ 1 then ([Char.ofNat code], none) else ([], some ⟨p.lacking - 1, 0x80, 0xBF, code⟩)
    else
      let (out, q) := firstByte b
      (replacementChar :: out, q)

def replacedFrom : Option PartialChar → Bytes → List Char
  | none, [] => []
  | some _, [] => [replacementChar]
  | p, b :: bs =>
    let (out, q) := nextByte p b
    out ++ replacedFrom q bs

/-- The text of the bytes, each longest part that begins no character replaced by U+FFFD. -/
def lossyText (bytes : Bytes) : String :=
  (utf8Text? bytes).getD (String.ofList (replacedFrom none bytes))

@[simp] theorem lossyText_utf8 (s : String) : lossyText (utf8 s) = s := by
  simp [lossyText]

/-- The characters with the Unicode property `White_Space`. -/
def isBlank (c : Char) : Bool :=
  let n := c.toNat
  decide (0x9 ≤ n ∧ n ≤ 0xD) || n == 0x20 || n == 0x85 || n == 0xA0 || n == 0x1680 ||
    decide (0x2000 ≤ n ∧ n ≤ 0x200A) || n == 0x2028 || n == 0x2029 || n == 0x202F || n == 0x205F || n == 0x3000

def trimStart (cs : List Char) : List Char :=
  cs.dropWhile isBlank

def trimEnd (cs : List Char) : List Char :=
  (cs.reverse.dropWhile isBlank).reverse

def trim (cs : List Char) : List Char :=
  trimEnd (trimStart cs)

/-- The word that begins the text, empty when a blank does, and the words after it. -/
def leadingWord : List Char → List Char × List (List Char)
  | [] => ([], [])
  | c :: cs =>
    let (word, later) := leadingWord cs
    if isBlank c then ([], if word.isEmpty then later else word :: later) else (c :: word, later)

/-- The maximal runs of characters that are not blank, in order. -/
def words (cs : List Char) : List (List Char) :=
  let (word, later) := leadingWord cs
  if word.isEmpty then later else word :: later

/-- The code point in hexadecimal, lower-case and without leading zeros. -/
def hexEscape (c : Char) : List Char :=
  '\\' :: 'u' :: '\x7b' :: Nat.toDigits 16 c.toNat ++ ['\x7d']

/-- The halfwidth sound marks of katakana extend a grapheme but are letters, set beside the one before. -/
def isSoundMark (c : Char) : Bool :=
  c == '\uFF9E' || c == '\uFF9F'

/-- Whether a character would be lost in the one before it, or from sight. -/
def isHidden (c : Char) : Bool :=
  (isGraphemeExtend c && !isSoundMark c) || !isPrintable c

/-- How one character stands inside the quotes. -/
def quoteChar (c : Char) : List Char :=
  match c with
  | '\x00' => ['\\', '0']
  | '\t' => ['\\', 't']
  | '\n' => ['\\', 'n']
  | '\r' => ['\\', 'r']
  | '"' => ['\\', '"']
  | '\\' => ['\\', '\\']
  | c => if isHidden c then hexEscape c else [c]

/-- The text between double quotes, escaped. -/
def quoted (s : String) : String :=
  String.ofList ('"' :: s.toList.flatMap quoteChar ++ ['"'])

/-- A list of quoted strings between brackets. -/
def quotedList (items : List String) : String :=
  "[" ++ ", ".intercalate (items.map quoted) ++ "]"

/-- The ASCII controls that a terminal acts on: bell, backspace, form feed, escape and delete. -/
def isAsciiSignal (c : Char) : Bool :=
  c == '\x07' || c == '\x08' || c == '\x0C' || c == '\x1B' || c == '\x7F'

/-- The control characters above ASCII. -/
def isUpperControl (c : Char) : Bool :=
  decide (0x80 ≤ c.toNat ∧ c.toNat ≤ 0x9F)

/-- The code of an ASCII character in two hexadecimal digits. -/
def shortHexEscape (c : Char) : List Char :=
  ['\\', 'x', Nat.digitChar (c.toNat / 16), Nat.digitChar (c.toNat % 16)]

def inertChar (c : Char) : List Char :=
  if isAsciiSignal c then shortHexEscape c else if isUpperControl c then hexEscape c else [c]

/-- The text with those controls written out. Line breaks and tabs are left as they are. -/
def inert (s : String) : String :=
  String.ofList (s.toList.flatMap inertChar)

/-- The text at the right of a column of at least so many characters. -/
def alignRight (width : Nat) (s : String) : String :=
  "".pushn ' ' (width - s.length) ++ s

/-- The text at the left of a column of at least so many characters. -/
def alignLeft (width : Nat) (s : String) : String :=
  s.pushn ' ' (width - s.length)

end MacroDeck
