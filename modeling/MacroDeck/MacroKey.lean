import MacroDeck.Text

namespace MacroDeck

/-- Key numbers and slot numbers lie below this bound: they fit in 64 bits. -/
def numberLimit : Nat := 0x10000000000000000

/-- A function key carries its slot's number; every other stem is counted from zero. -/
structure MacroKey where
  stem : String
  number : Nat
deriving DecidableEq, Repr

inductive KeyFault where
  | noNumber
  | outOfRange
deriving DecidableEq, Repr

/-- A key that names no slot. -/
structure KeyError where
  key : String
  fault : KeyFault
deriving DecidableEq, Repr

def KeyFault.message : KeyFault → String
  | .noNumber => "no trailing number"
  | .outOfRange => "number out of range"

def KeyError.message (e : KeyError) : String :=
  s!"invalid macro key {quoted e.key}: {e.fault.message}"

namespace MacroKey

/-- The longest run of ASCII digits at the end. -/
def trailingDigits (cs : List Char) : List Char :=
  (cs.reverse.takeWhile Char.isDigit).reverse

def withoutTrailingDigits (cs : List Char) : List Char :=
  (cs.reverse.dropWhile Char.isDigit).reverse

def decode (key : String) : Except KeyError MacroKey :=
  let digits := trailingDigits key.toList
  let number := Nat.ofDigitChars 10 digits 0
  if digits.isEmpty then .error ⟨key, .noNumber⟩
  else if number < numberLimit then .ok ⟨String.ofList (withoutTrailingDigits key.toList), number⟩
  else .error ⟨key, .outOfRange⟩

def isFunctionKey (k : MacroKey) : Bool :=
  k.stem == "f" || k.stem == "F"

/-- The slot that the key names, if there is a slot of that number. -/
def slot? (k : MacroKey) : Option Nat :=
  if k.isFunctionKey then some k.number
  else if k.number + 1 < numberLimit then some (k.number + 1)
  else none

end MacroKey

def slotOfKey (key : String) : Except KeyError Nat := do
  match (← MacroKey.decode key).slot? with
  | some slot => .ok slot
  | none => .error ⟨key, .outOfRange⟩

end MacroDeck
