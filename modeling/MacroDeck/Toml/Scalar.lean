import MacroDeck.Toml.Lexeme
import MacroDeck.Toml.Table

namespace MacroDeck.Toml

def isWordChar (c : Char) : Bool :=
  c.isAlphanum || c == '_' || c == '-' || c == '+' || c == '.' || c == ':'

/-- A sign and what follows it. -/
def takeSign : List Char → Option Char × List Char
  | '+' :: cs => (some '+', cs)
  | '-' :: cs => (some '-', cs)
  | cs => (none, cs)

/-- The digits of a number without the underscores, each of which stands between two digits. -/
def ungroup? (isDigit : Char → Bool) : List Char → Option (List Char)
  | [] => none
  | [d] => if isDigit d then some [d] else none
  | d :: '_' :: rest => if isDigit d then (ungroup? isDigit rest).map (d :: ·) else none
  | d :: rest => if isDigit d then (ungroup? isDigit rest).map (d :: ·) else none

/-- As `ungroup?`, for a decimal number that no zero may lead. -/
def wholePart? (cs : List Char) : Option (List Char) :=
  if cs.head? = some '0' ∧ cs ≠ ['0'] then none else ungroup? Char.isDigit cs

def digitsValue (base : Nat) (cs : List Char) : Nat :=
  cs.foldl (fun n c => n * base + (hexValue? c).getD 0) 0

/-- The bound of integers: they fit in 64 bits with a sign. -/
def integerLimit : Nat := 0x8000000000000000

def decimal? (cs : List Char) : Option Int := do
  let (sign, digits) := takeSign cs
  let n := digitsValue 10 (← wholePart? digits)
  if sign = some '-' then
    guard (n ≤ integerLimit)
    return -n
  else
    guard (n < integerLimit)
    return n

/-- A number of another base, after the letter that tells the base. -/
def based? (base : Nat) (cs : List Char) : Option Int := do
  let n := digitsValue base (← ungroup? (fun c => (hexValue? c).any (· < base)) cs)
  guard (n < integerLimit)
  return n

def integer? : List Char → Option Int
  | '0' :: 'x' :: cs => based? 16 cs
  | '0' :: 'o' :: cs => based? 8 cs
  | '0' :: 'b' :: cs => based? 2 cs
  | cs => decimal? cs

/-- Halfway from the greatest double to `2 ^ 1024`. Exactly the numbers below it round to a double. -/
def doubleLimit : Nat := (1 <<< 1024) - (1 <<< 970)

/-- Whether `digits · 10 ^ exponent` is too great for a double. Numbers of very many or very few places are told by
their places alone. -/
def exceedsDouble (digits : List Char) (exponent : Int) : Bool :=
  let significant := digits.dropWhile (· == '0')
  let places := significant.length + exponent
  let n := digitsValue 10 significant
  if significant.isEmpty || places < 309 then false
  else if places > 309 then true
  else n * Nat.pow 10 exponent.toNat ≥ doubleLimit * Nat.pow 10 (-exponent).toNat

/-- The exponent of a number with a point, after the letter. -/
def exponent? (cs : List Char) : Option Int := do
  let (sign, digits) := takeSign cs
  let n := digitsValue 10 (← ungroup? Char.isDigit digits)
  return if sign = some '-' then -n else n

def isDigitOrUnderscore (c : Char) : Bool :=
  c.isDigit || c == '_'

/-- The exponent that ends a number, or zero if the number ends here. -/
def endingExponent? : List Char → Option Int
  | [] => some 0
  | c :: cs => if c = 'e' ∨ c = 'E' then exponent? cs else none

/-- A positive number beyond all doubles is no number. -/
def isFloat (cs : List Char) : Bool :=
  let (sign, body) := takeSign cs
  if body = ['i', 'n', 'f'] ∨ body = ['n', 'a', 'n'] then true
  else
    let read : Option (List Char × Int) := do
      let whole ← wholePart? (body.takeWhile isDigitOrUnderscore)
      match body.dropWhile isDigitOrUnderscore with
      | '.' :: rest =>
        let places ← ungroup? Char.isDigit (rest.takeWhile isDigitOrUnderscore)
        let e ← endingExponent? (rest.dropWhile isDigitOrUnderscore)
        return (whole ++ places, e - places.length)
      | [] => none
      | rest => return (whole, ← endingExponent? rest)
    match read with
    | none => false
    | some (digits, e) => sign == some '-' || !exceedsDouble digits e

/-- The number of exactly so many decimal digits. -/
def readDigits (count : Nat) (cs : List Char) : Option (Nat × List Char) :=
  let digits := cs.take count
  if digits.length = count ∧ digits.all Char.isDigit then some (digitsValue 10 digits, cs.drop count) else none

def expect (c : Char) : List Char → Option (List Char)
  | [] => none
  | d :: cs => if d = c then some cs else none

def isLeapYear (year : Nat) : Bool :=
  year % 4 == 0 && (year % 100 != 0 || year % 400 == 0)

def daysInMonth (year month : Nat) : Nat :=
  if month = 2 then if isLeapYear year then 29 else 28
  else if month = 4 ∨ month = 6 ∨ month = 9 ∨ month = 11 then 30
  else 31

/-- The rest after a date of the calendar. -/
def afterDate? (cs : List Char) : Option (List Char) := do
  let (year, cs) ← readDigits 4 cs
  let (month, cs) ← readDigits 2 (← expect '-' cs)
  let (day, cs) ← readDigits 2 (← expect '-' cs)
  guard (1 ≤ month ∧ month ≤ 12 ∧ 1 ≤ day ∧ day ≤ daysInMonth year month)
  return cs

/-- The rest after a time of the day, which may be a leap second. -/
def afterTime? (cs : List Char) : Option (List Char) := do
  let (hour, cs) ← readDigits 2 cs
  let (minute, cs) ← readDigits 2 (← expect ':' cs)
  let (second, cs) ← readDigits 2 (← expect ':' cs)
  guard (hour < 24 ∧ minute < 60 ∧ second ≤ 60)
  match cs with
  | '.' :: rest =>
    guard ((rest.takeWhile Char.isDigit) ≠ [])
    return rest.dropWhile Char.isDigit
  | rest => return rest

/-- Whether these characters are the distance from universal time. -/
def isOffset : List Char → Bool
  | ['Z'] => true
  | ['z'] => true
  | '+' :: cs => hoursAndMinutes cs
  | '-' :: cs => hoursAndMinutes cs
  | _ => false
where
  hoursAndMinutes (cs : List Char) : Bool :=
    let read : Option Bool := do
      let (hour, cs) ← readDigits 2 cs
      let (minute, cs) ← readDigits 2 (← expect ':' cs)
      return hour < 24 && minute < 60 && cs.isEmpty
    read.getD false

/-- Whether these characters are a time that may say its distance from universal time. -/
def isOffsetTime (cs : List Char) : Bool :=
  match afterTime? cs with
  | none => false
  | some rest => rest.isEmpty || isOffset rest

def isDate (cs : List Char) : Bool :=
  afterDate? cs == some []

def isDatetime (cs : List Char) : Bool :=
  afterTime? cs == some [] ||
    match afterDate? cs with
    | some [] => true
    | some (c :: rest) => (c == 'T' || c == 't') && isOffsetTime rest
    | none => false

/-- The value that a word is. -/
def scalar? (word : List Char) : Option Item :=
  if word = ['t', 'r', 'u', 'e'] then some (.boolean true)
  else if word = ['f', 'a', 'l', 's', 'e'] then some (.boolean false)
  else if isDatetime word then some (.datetime (.ofList word))
  else if isFloat word then some (.float (.ofList word))
  else (integer? word).map .integer

/-- The value that stands first. -/
def readScalar (cs : List Char) : Option (Item × List Char) :=
  let word := cs.takeWhile isWordChar
  let rest := cs.dropWhile isWordChar
  let time := rest.tail.takeWhile isWordChar
  if isDate word && rest.head? == some ' ' && isOffsetTime time then
    some (.datetime (.ofList (word ++ ' ' :: time)), rest.tail.dropWhile isWordChar)
  else (scalar? word).map fun item => (item, rest)

end MacroDeck.Toml
