import MacroDeck.Event
import MacroDeck.KeyValues

namespace MacroDeck

/-- A template holds the place of the slot's number as an opening brace followed at once by a closing one. -/
structure Naming where
  template : String := "Macro \x7b\x7d"
deriving DecidableEq, Repr

namespace Naming

def hasPlace : List Char → Bool
  | [] => false
  | '\x7b' :: '\x7d' :: _ => true
  | _ :: cs => hasPlace cs

/-- Every place, found from the left, filled with the number. -/
def fill (number : List Char) : List Char → List Char
  | [] => []
  | '\x7b' :: '\x7d' :: cs => number ++ fill number cs
  | c :: cs => c :: fill number cs

/-- A template without a place is followed by a space and the number. -/
def name (n : Naming) (slot : Nat) : String :=
  let template := n.template.toList
  let number := Nat.toDigits 10 slot
  String.ofList (if hasPlace template then fill number template else template ++ ' ' :: number)

end Naming

structure Slot where
  index : Nat
  name : String
  contents : String
deriving DecidableEq, Repr

/-- The slots with the given one among them, in place of any other of its number. -/
def putSlot (slot : Slot) : List Slot → List Slot
  | [] => [slot]
  | s :: rest =>
    if slot.index < s.index then slot :: s :: rest
    else if slot.index = s.index then slot :: rest
    else s :: putSlot slot rest

theorem mem_putSlot {slot s : Slot} {slots : List Slot} (h : s ∈ putSlot slot slots) :
    s = slot ∨ s ∈ slots := by
  induction slots with
  | nil => simpa [putSlot] using h
  | cons first rest ih =>
    unfold putSlot at h
    split at h
    · simpa using h
    · split at h
      · rcases List.mem_cons.mp h with h | h
        · exact .inl h
        · exact .inr (List.mem_cons_of_mem _ h)
      · rcases List.mem_cons.mp h with h | h
        · exact .inr (h ▸ List.mem_cons_self)
        · exact (ih h).imp_right (List.mem_cons_of_mem _)

theorem ascending_putSlot (slot : Slot) {slots : List Slot}
    (h : slots.Pairwise (·.index < ·.index)) : (putSlot slot slots).Pairwise (·.index < ·.index) := by
  induction slots with
  | nil => simp [putSlot]
  | cons first rest ih =>
    obtain ⟨above, ascending⟩ := List.pairwise_cons.mp h
    unfold putSlot
    split
    · rename_i lt
      refine List.pairwise_cons.mpr ⟨fun s hs => ?_, h⟩
      rcases List.mem_cons.mp hs with rfl | hs
      · exact lt
      · exact Nat.lt_trans lt (above s hs)
    · split
      · rename_i eq
        exact List.pairwise_cons.mpr ⟨fun s hs => eq ▸ above s hs, ascending⟩
      · refine List.pairwise_cons.mpr ⟨fun s hs => ?_, ih ascending⟩
        rcases mem_putSlot hs with rfl | hs
        · omega
        · exact above s hs

structure MacroSet where
  slots : List Slot := []
  ascending : slots.Pairwise (·.index < ·.index) := by decide
deriving DecidableEq

namespace MacroSet

def empty : MacroSet := {}

def define (m : MacroSet) (slot : Slot) : MacroSet :=
  ⟨putSlot slot m.slots, ascending_putSlot slot m.ascending⟩

/-- The slots defined one after the other. -/
def ofList (slots : List Slot) : MacroSet :=
  slots.foldl define empty

def get? (m : MacroSet) (index : Nat) : Option Slot :=
  m.slots.find? (·.index == index)

def size (m : MacroSet) : Nat :=
  m.slots.length

def isEmpty (m : MacroSet) : Bool :=
  m.slots.isEmpty

end MacroSet

/-- What becomes of a key that names no slot. -/
inductive KeyPolicy where
  /-- It fails the whole map. -/
  | strict
  /-- It is noted and left out. -/
  | skip
deriving DecidableEq, Repr

namespace MacroSet

/-- The pairs defined one after the other, with the events on the way. -/
def addPairs (policy : KeyPolicy) (naming : Naming) :
    List (String × String) → MacroSet → List Event × Except KeyError MacroSet
  | [], m => ([], .ok m)
  | (key, contents) :: rest, m =>
    match slotOfKey key with
    | .ok index =>
      let (events, result) := addPairs policy naming rest (m.define ⟨index, naming.name index, contents⟩)
      (((m.get? index).map fun old => Event.redefined index old.contents).toList ++ events, result)
    | .error e =>
      match policy with
      | .strict => ([], .error e)
      | .skip =>
        let (events, result) := addPairs policy naming rest m
        (.skippedKey e :: events, result)

/-- The slots of the map's keys. A later pair of the same slot takes the place of an earlier one. -/
def ofKeyValues (policy : KeyPolicy) (naming : Naming) (m : KeyValues) : List Event × Except KeyError MacroSet :=
  addPairs policy naming m.pairs empty

end MacroSet

def KeyValues.hasMacroKey (m : KeyValues) : Bool :=
  m.keys.any fun key => (MacroKey.decode key).toBool

end MacroDeck
