import MacroDeck.MacroKey
import MacroDeck.Proofs.Text.Delimited
import Mathlib.Data.List.TakeWhile

namespace MacroDeck

theorem isBlank_of_isDigit {c : Char} (h : c.isDigit = true) : isBlank c = false := by
  have range : 48 ≤ c.toNat ∧ c.toNat ≤ 57 := by
    simpa [Char.isDigit, UInt32.le_iff_toNat_le] using h
  simp [isBlank]
  omega

namespace MacroKey

section

variable {stem digits : List Char}

theorem trailingDigits_append (hs : ∀ c ∈ stem.getLast?, c.isDigit = false) (hd : ∀ c ∈ digits, c.isDigit = true) :
    trailingDigits (stem ++ digits) = digits := by
  rw [trailingDigits, List.reverse_append, takeWhile_run (by simpa using hd) (by simpa using hs), List.reverse_reverse]

theorem withoutTrailingDigits_append (hs : ∀ c ∈ stem.getLast?, c.isDigit = false)
    (hd : ∀ c ∈ digits, c.isDigit = true) : withoutTrailingDigits (stem ++ digits) = stem := by
  rw [withoutTrailingDigits, List.reverse_append, dropWhile_run (by simpa using hd) (by simpa using hs),
    List.reverse_reverse]

end

end MacroKey

/-- The key ends in the number. The digits are all that stand at its end, so its stem does not end with one. -/
def Numbered (key stem : String) (number : Nat) : Prop :=
  ∃ digits : List Char, key.toList = stem.toList ++ digits ∧ digits ≠ [] ∧ (∀ c ∈ digits, c.isDigit = true) ∧
    (∀ c ∈ stem.toList.getLast?, c.isDigit = false) ∧ number = Nat.ofDigitChars 10 digits 0

/-- The key does not end with a digit. -/
def Undigited (key : String) : Prop :=
  ∀ c ∈ key.toList.getLast?, c.isDigit = false

/-- The slot that a key comes to, whether or not there is one of that number. -/
def countedSlot (stem : String) (number : Nat) : Nat :=
  if stem = "f" ∨ stem = "F" then number else number + 1

def NamesSlot (key : String) (slot : Nat) : Prop :=
  ∃ stem number, Numbered key stem number ∧ slot = countedSlot stem number ∧ slot < numberLimit

/-- The keys without a slot. -/
inductive Slotless (key : String) : Prop where
  | undigited (h : Undigited key)
  | oversized {stem : String} {number : Nat} (h : Numbered key stem number) (large : numberLimit ≤ number)
  | beyond {stem : String} (h : Numbered key stem (numberLimit - 1)) (lower : stem ≠ "f") (upper : stem ≠ "F")

theorem numbered_or_undigited (key : String) : (∃ stem number, Numbered key stem number) ∨ Undigited key := by
  let digits := MacroKey.trailingDigits key.toList
  let stem := MacroKey.withoutTrailingDigits key.toList
  have split : key.toList = stem ++ digits := by
    have whole := congrArg List.reverse (List.takeWhile_append_dropWhile (p := Char.isDigit) (l := key.toList.reverse))
    rw [List.reverse_append, List.reverse_reverse] at whole
    exact whole.symm
  have cut : ∀ c ∈ stem.getLast?, c.isDigit = false := by
    intro c hc
    have stop := List.head?_dropWhile_not Char.isDigit key.toList.reverse
    rwa [List.getLast?_reverse.symm.trans hc] at stop
  by_cases empty : digits = []
  · rw [empty, List.append_nil] at split
    exact .inr fun c hc => cut c (split ▸ hc)
  · refine .inl ⟨.ofList stem, _, digits, ?_, empty, fun c hc => ?_, ?_, rfl⟩
    · rw [String.toList_ofList, split]
    · exact List.mem_takeWhile_imp (List.mem_reverse.mp hc)
    · rwa [String.toList_ofList]

/-- Zeros before a number leave it what it is. -/
theorem numbered_padded {stem : String} (cut : ∀ c ∈ stem.toList.getLast?, c.isDigit = false) (zeros number : Nat) :
    Numbered (stem ++ .ofList (List.replicate zeros '0' ++ Nat.toDigits 10 number)) stem number := by
  refine ⟨List.replicate zeros '0' ++ Nat.toDigits 10 number, ?_, ?_, fun c hc => ?_, cut, ?_⟩
  · rw [String.toList_append, String.toList_ofList]
  · exact List.append_ne_nil_of_right_ne_nil _ Nat.toDigits_ne_nil
  · rcases List.mem_append.mp hc with padding | digit
    · rw [List.eq_of_mem_replicate padding]
      rfl
    · exact isDigit_of_mem_toDigits digit
  · rw [Nat.ofDigitChars_append, Nat.ofDigitChars_replicate_zero, Nat.mul_zero, Nat.ofDigitChars_ten_toDigits]

theorem numbered_decimal {stem : String} (cut : ∀ c ∈ stem.toList.getLast?, c.isDigit = false) (number : Nat) :
    Numbered (.ofList (stem.toList ++ Nat.toDigits 10 number)) stem number := by
  rw [String.ofList_append, String.ofList_toList]
  exact numbered_padded cut 0 number

section

variable {key stem : String} {number slot : Nat}

theorem decode_of_numbered (h : Numbered key stem number) :
    MacroKey.decode key = if number < numberLimit then .ok ⟨stem, number⟩ else .error ⟨key, .outOfRange⟩ := by
  obtain ⟨digits, split, nonempty, all, cut, rfl⟩ := h
  simp [MacroKey.decode, split, MacroKey.trailingDigits_append cut all,
    MacroKey.withoutTrailingDigits_append cut all, nonempty]

theorem decode_of_undigited (h : Undigited key) : MacroKey.decode key = .error ⟨key, .noNumber⟩ := by
  have none : MacroKey.trailingDigits key.toList = [] := by
    have whole : MacroKey.trailingDigits (key.toList ++ []) = [] := MacroKey.trailingDigits_append h (by simp)
    rwa [List.append_nil] at whole
  simp [MacroKey.decode, none]

theorem decode_eq_ok_iff {k : MacroKey} :
    MacroKey.decode key = .ok k ↔ Numbered key k.stem k.number ∧ k.number < numberLimit := by
  constructor
  · intro h
    rcases numbered_or_undigited key with ⟨stem, number, numbered⟩ | undigited
    · rw [decode_of_numbered numbered] at h
      split at h
      next fits =>
        cases h
        exact ⟨numbered, fits⟩
      next => cases h
    · rw [decode_of_undigited undigited] at h
      cases h
  · rintro ⟨numbered, fits⟩
    rw [decode_of_numbered numbered, if_pos fits]

theorem isFunctionKey_iff {k : MacroKey} : k.isFunctionKey = true ↔ k.stem = "f" ∨ k.stem = "F" := by
  simp [MacroKey.isFunctionKey]

theorem countedSlot_of_function (h : stem = "f" ∨ stem = "F") : countedSlot stem number = number :=
  if_pos h

theorem countedSlot_of_other (h : ¬ (stem = "f" ∨ stem = "F")) : countedSlot stem number = number + 1 :=
  if_neg h

theorem le_countedSlot (stem : String) (number : Nat) : number ≤ countedSlot stem number := by
  unfold countedSlot
  split <;> omega

theorem slotOfKey_of_numbered (h : Numbered key stem number) :
    slotOfKey key =
      if countedSlot stem number < numberLimit then .ok (countedSlot stem number) else .error ⟨key, .outOfRange⟩ := by
  unfold slotOfKey
  rw [decode_of_numbered h]
  by_cases fits : number < numberLimit
  · rw [if_pos fits]
    by_cases function : stem = "f" ∨ stem = "F"
    · simp [bind, Except.bind, MacroKey.slot?, isFunctionKey_iff, function, countedSlot_of_function, fits]
    · by_cases next : number + 1 < numberLimit <;>
        simp [bind, Except.bind, MacroKey.slot?, isFunctionKey_iff, function, countedSlot_of_other, next]
  · have large := le_countedSlot stem number
    have outside : ¬ countedSlot stem number < numberLimit := by omega
    rw [if_neg fits, if_neg outside]
    rfl

theorem slotOfKey_of_undigited (h : Undigited key) : slotOfKey key = .error ⟨key, .noNumber⟩ := by
  rw [slotOfKey, decode_of_undigited h]
  rfl

theorem slotOfKey_eq_ok_iff : slotOfKey key = .ok slot ↔ NamesSlot key slot := by
  constructor
  · intro h
    rcases numbered_or_undigited key with ⟨stem, number, numbered⟩ | undigited
    · rw [slotOfKey_of_numbered numbered] at h
      by_cases fits : countedSlot stem number < numberLimit
      · rw [if_pos fits] at h
        cases h
        exact ⟨stem, number, numbered, rfl, fits⟩
      · rw [if_neg fits] at h
        cases h
    · rw [slotOfKey_of_undigited undigited] at h
      cases h
  · rintro ⟨stem, number, numbered, rfl, fits⟩
    rw [slotOfKey_of_numbered numbered, if_pos fits]

theorem not_undigited (h : Numbered key stem number) : ¬ Undigited key := by
  obtain ⟨digits, split, nonempty, all, -, -⟩ := h
  intro undigited
  have last : key.toList.getLast? = some (digits.getLast nonempty) := by
    rw [split, List.getLast?_append_of_ne_nil _ nonempty, List.getLast?_eq_some_getLast nonempty]
  have digit := all _ (List.getLast_mem nonempty)
  rw [undigited _ last] at digit
  cases digit

theorem slotless_iff_error : Slotless key ↔ ∃ e, slotOfKey key = .error e := by
  constructor
  · rintro (undigited | @⟨stem, number, numbered, large⟩ | ⟨numbered, lower, upper⟩)
    · exact ⟨_, slotOfKey_of_undigited undigited⟩
    · have outside : ¬ countedSlot stem number < numberLimit := by
        have := le_countedSlot stem number
        omega
      exact ⟨_, (slotOfKey_of_numbered numbered).trans (if_neg outside)⟩
    · rw [slotOfKey_of_numbered numbered, countedSlot_of_other (not_or.mpr ⟨lower, upper⟩)]
      exact ⟨_, if_neg (by decide)⟩
  · rintro ⟨e, h⟩
    rcases numbered_or_undigited key with ⟨stem, number, numbered⟩ | undigited
    · by_cases large : numberLimit ≤ number
      · exact .oversized numbered large
      · have outside : ¬ countedSlot stem number < numberLimit := by
          intro fits
          rw [slotOfKey_of_numbered numbered, if_pos fits] at h
          cases h
        by_cases function : stem = "f" ∨ stem = "F"
        · rw [countedSlot_of_function function] at outside
          omega
        · rw [countedSlot_of_other function] at outside
          have last : number = numberLimit - 1 := by omega
          obtain ⟨lower, upper⟩ := not_or.mp function
          exact .beyond (last ▸ numbered) lower upper
    · exact .undigited undigited

theorem not_slotless_iff : ¬ Slotless key ↔ ∃ slot, NamesSlot key slot := by
  rw [slotless_iff_error]
  simp only [← slotOfKey_eq_ok_iff]
  cases slotOfKey key <;> simp

/-- The error of a key tells the key, and why it names no slot. -/
theorem error_of_slotOfKey {e : KeyError} (h : slotOfKey key = .error e) :
    e.key = key ∧ (e.fault = .noNumber ↔ Undigited key) := by
  rcases numbered_or_undigited key with ⟨stem, number, numbered⟩ | undigited
  · rw [slotOfKey_of_numbered numbered] at h
    by_cases fits : countedSlot stem number < numberLimit
    · rw [if_pos fits] at h
      cases h
    · rw [if_neg fits] at h
      cases h
      refine ⟨rfl, fun noNumber => KeyFault.noConfusion noNumber, fun undigited => ?_⟩
      exact absurd undigited (not_undigited numbered)
  · rw [slotOfKey_of_undigited undigited] at h
    cases h
    exact ⟨rfl, fun _ => undigited, fun _ => rfl⟩

end

end MacroDeck
