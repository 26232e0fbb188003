import MacroDeck.Proofs.MacroKey.Slots
import Mathlib.Data.Nat.Digits.Defs

namespace MacroDeck

/-- The number that the digits stand for, each by its place. -/
def decimalValue (digits : List Char) : Nat :=
  Nat.ofDigits 10 (digits.reverse.map fun c => c.toNat - '0'.toNat)

/-- The key is the stem with these digits behind it, and they are all that the key ends with. -/
structure Spells (key stem : String) (digits : List Char) : Prop where
  whole : key = stem ++ .ofList digits
  nonempty : digits ≠ []
  digits : ∀ c ∈ digits, c.isDigit = true
  cut : ∀ c ∈ stem.toList.getLast?, c.isDigit = false

theorem decimalValue_cons (c : Char) (digits : List Char) :
    decimalValue (c :: digits) = 10 ^ digits.length * (c.toNat - '0'.toNat) + decimalValue digits := by
  simp [decimalValue, Nat.ofDigits_append, Nat.add_comm]

/-- Digits read from the left, one after the other, come to what they stand for by their places. -/
theorem ofDigitChars_eq_decimalValue (digits : List Char) : Nat.ofDigitChars 10 digits 0 = decimalValue digits := by
  induction digits with
  | nil => rfl
  | cons c rest ih =>
    rw [Nat.ofDigitChars_cons, Nat.ofDigitChars_eq_ofDigitChars_zero, ih, decimalValue_cons, Nat.mul_zero, Nat.zero_add]

theorem numbered_iff_spells {key stem : String} {number : Nat} :
    Numbered key stem number ↔ ∃ digits, Spells key stem digits ∧ number = decimalValue digits := by
  constructor
  · rintro ⟨digits, split, nonempty, all, cut, rfl⟩
    refine ⟨digits, ⟨?_, nonempty, all, cut⟩, ofDigitChars_eq_decimalValue digits⟩
    rw [← String.toList_inj, split, String.toList_append, String.toList_ofList]
  · rintro ⟨digits, ⟨rfl, nonempty, all, cut⟩, rfl⟩
    refine ⟨digits, ?_, nonempty, all, cut, (ofDigitChars_eq_decimalValue digits).symm⟩
    rw [String.toList_append, String.toList_ofList]

theorem key_of_decode_eq_error {key : String} {e : KeyError} (h : MacroKey.decode key = .error e) : e.key = key := by
  rcases numbered_or_undigited key with ⟨stem, number, numbered⟩ | undigited
  · rw [decode_of_numbered numbered] at h
    split at h
    next => cases h
    next =>
      cases h
      rfl
  · rw [decode_of_undigited undigited] at h
    cases h
    rfl

/-- A key names the slot that its number is counted to, if that slot is within the range. -/
theorem slotOfKey_eq_ok_iff_counted {key : String} {slot : Nat} :
    slotOfKey key = .ok slot ↔
      ∃ k, MacroKey.decode key = .ok k ∧ slot = countedSlot k.stem k.number ∧ slot < numberLimit := by
  rw [slotOfKey_eq_ok_iff]
  constructor
  · rintro ⟨stem, number, numbered, rfl, fits⟩
    have inRange : number < numberLimit := Nat.lt_of_le_of_lt (le_countedSlot stem number) fits
    exact ⟨⟨stem, number⟩, decode_eq_ok_iff.mpr ⟨numbered, inRange⟩, rfl, fits⟩
  · rintro ⟨k, decoded, rfl, fits⟩
    exact ⟨k.stem, k.number, (decode_eq_ok_iff.mp decoded).1, rfl, fits⟩

/-- A key is read in natural numbers, however long it is: as the stem and the number that it spells, if that number is
within the range, and to the slot counted from it, if that slot is. Any other key is given back unchanged in the error.
Zeros before a number change nothing, no slot lies below the number of its key, and only function keys name the first
slot of all. -/
theorem slotOfKey_exact (key : String) :
    (∀ k, MacroKey.decode key = .ok k ↔
      ∃ digits, Spells key k.stem digits ∧ k.number = decimalValue digits ∧ k.number < numberLimit) ∧
    (∀ slot, slotOfKey key = .ok slot ↔
      ∃ k, MacroKey.decode key = .ok k ∧ slot = countedSlot k.stem k.number ∧ slot < numberLimit) ∧
    (∀ e, MacroKey.decode key = .error e → e.key = key) ∧
    (∀ e, slotOfKey key = .error e → e.key = key) ∧
    (∀ stem number zeros, (∀ c ∈ stem.toList.getLast?, c.isDigit = false) → number < numberLimit →
      key = stem ++ .ofList (List.replicate zeros '0' ++ Nat.toDigits 10 number) →
        MacroKey.decode key = .ok ⟨stem, number⟩) ∧
    (∀ k slot, MacroKey.decode key = .ok k → slotOfKey key = .ok slot → k.number ≤ slot) ∧
    (slotOfKey key = .ok 0 → ∃ k, MacroKey.decode key = .ok k ∧ (k.stem = "f" ∨ k.stem = "F")) := by
  refine ⟨fun k => ?_, fun slot => slotOfKey_eq_ok_iff_counted, fun e => key_of_decode_eq_error,
    fun e failed => (error_of_slotOfKey failed).1, ?_, fun k slot decoded named => ?_, fun named => ?_⟩
  · rw [decode_eq_ok_iff, numbered_iff_spells]
    simp only [← and_assoc, exists_and_right]
  · rintro stem number zeros cut fits rfl
    rw [decode_of_numbered (numbered_padded cut zeros number), if_pos fits]
  · obtain ⟨k', decoded', rfl, -⟩ := slotOfKey_eq_ok_iff_counted.mp named
    obtain rfl := Except.ok.inj (decoded'.symm.trans decoded)
    exact le_countedSlot _ _
  · obtain ⟨k, decoded, zero, -⟩ := slotOfKey_eq_ok_iff_counted.mp named
    refine ⟨k, decoded, ?_⟩
    by_contra other
    rw [countedSlot_of_other other] at zero
    omega

/-- The last number of all with zeros before it names a slot behind an "f", and none behind another stem. -/
theorem slotOfKey_exact_at_last_number :
    let digits := List.replicate 3 '0' ++ Nat.toDigits 10 (numberLimit - 1)
    slotOfKey ("f" ++ .ofList digits) = .ok (numberLimit - 1) ∧
      MacroKey.decode ("é9m" ++ .ofList digits) = .ok ⟨"é9m", numberLimit - 1⟩ ∧
      ∀ slot, slotOfKey ("é9m" ++ .ofList digits) ≠ .ok slot := by
  intro digits
  have letter : ∀ c ∈ "f".toList.getLast?, c.isDigit = false := by
    rintro c ⟨⟩
    rfl
  have letters : ∀ c ∈ "é9m".toList.getLast?, c.isDigit = false := by
    rintro c ⟨⟩
    rfl
  obtain ⟨-, slots, -, -, padded, -⟩ := slotOfKey_exact ("f" ++ .ofList digits)
  obtain ⟨-, slots', -, -, padded', -⟩ := slotOfKey_exact ("é9m" ++ .ofList digits)
  have decoded := padded "f" (numberLimit - 1) 3 letter (by decide) rfl
  have decoded' := padded' "é9m" (numberLimit - 1) 3 letters (by decide) rfl
  refine ⟨(slots _).mpr ⟨_, decoded, by decide, by decide⟩, decoded', fun slot named => ?_⟩
  obtain ⟨k, same, rfl, fits⟩ := (slots' slot).mp named
  obtain rfl := Except.ok.inj (decoded'.symm.trans same)
  exact absurd fits (by decide)

end MacroDeck
