import MacroDeck.Toml.Printer

namespace MacroDeck.Toml

theorem hexValue?_upperHexDigit : ∀ d < 16, hexValue? (upperHexDigit d) = some d := by
  decide

@[simp] theorem emit_some (c : Char) (text rest : List Char) : emit c (some (text, rest)) = some (c :: text, rest) :=
  rfl

/-- A reader that takes escapes as `escapeStep` says. -/
structure FollowsEscapes (read : EscapeState → Reader (List Char)) : Prop where
  opening : ∀ cs, read .text ('\\' :: cs) = read .begun cs
  letter : ∀ {c e : Char}, escapedChar? c = some e → ∀ cs, read .begun (c :: cs) = emit e (read .text cs)
  code : ∀ cs, read .begun ('u' :: cs) = read (.digits 4 0) cs
  digit : ∀ {missing value d : Nat} {c : Char}, hexValue? c = some d → 1 < missing → ∀ cs,
    read (.digits missing value) (c :: cs) = read (.digits (missing - 1) (value * 16 + d)) cs
  lastDigit : ∀ {value d : Nat} {c : Char}, hexValue? c = some d → (value * 16 + d).isValidChar → ∀ cs,
    read (.digits 1 value) (c :: cs) = emit (.ofNat (value * 16 + d)) (read .text cs)

theorem escapeStep_digit {missing value d : Nat} {c : Char} (h : hexValue? c = some d) (many : 1 < missing) :
    escapeStep (.digits missing value) c = some (none, .digits (missing - 1) (value * 16 + d)) := by
  rw [escapeStep, h, Option.bind_eq_bind, Option.bind_some, if_neg (Nat.not_le.mpr many)]
  rfl

theorem escapeStep_lastDigit {value d : Nat} {c : Char} (h : hexValue? c = some d)
    (valid : (value * 16 + d).isValidChar) :
    escapeStep (.digits 1 value) c = some (some (.ofNat (value * 16 + d)), .text) := by
  have passed : (guard (value * 16 + d).isValidChar : Option Unit) = some () := if_pos valid
  rw [escapeStep, h, Option.bind_eq_bind, Option.bind_some, if_pos (Nat.le_refl 1), passed]
  rfl

theorem readBasicFrom_follows : FollowsEscapes readBasicFrom where
  opening cs := by simp [readBasicFrom]
  letter h cs := by simp [readBasicFrom, escapeStep, h]
  code cs := by simp [readBasicFrom, escapeStep, escapedChar?, codeDigits?]
  digit h many cs := by simp [readBasicFrom, escapeStep_digit h many]
  lastDigit h valid cs := by simp [readBasicFrom, escapeStep_lastDigit h valid]

theorem readMultiBasicFrom_follows : FollowsEscapes readMultiBasicFrom where
  opening cs := by simp [readMultiBasicFrom]
  letter h cs := by
    unfold escapedChar? at h
    split at h <;> cases h <;> simp [readMultiBasicFrom, escapeStep, escapedChar?]
  code cs := by simp [readMultiBasicFrom, escapeStep, escapedChar?, codeDigits?]
  digit h many cs := by simp [readMultiBasicFrom, escapeStep_digit h many]
  lastDigit h valid cs := by simp [readMultiBasicFrom, escapeStep_lastDigit h valid]

theorem isText_of_escape?_eq_none {c : Char} (h : escape? c = none) : isText c = true ∧ c ≠ '\\' := by
  unfold escape? at h
  split at h <;> try cases h
  next notBackslash =>
    split at h
    next text => exact ⟨text, notBackslash⟩
    next => cases h

theorem head_escape? {c : Char} {e : List Char} (h : escape? c = some e) : e.head? = some '\\' := by
  unfold escape? at h
  split at h
  case h_7 =>
    split at h <;> cases h
    rfl
  all_goals
    cases h
    rfl

/-- What is written for a character begins with a backslash, or it is the character and text. -/
theorem head_written (c : Char) (tail : List Char) :
    ((escape? c).getD [c] ++ tail).head? = some '\\' ∨
      isText c = true ∧ ((escape? c).getD [c] ++ tail).head? = some c := by
  cases he : escape? c with
  | some e =>
    have first := head_escape? he
    exact .inl (by simp [List.head?_append, first])
  | none => exact .inr ⟨(isText_of_escape?_eq_none he).1, rfl⟩

namespace FollowsEscapes

variable {read : EscapeState → Reader (List Char)}

theorem read_quote (follows : FollowsEscapes read) (rest : List Char) :
    read .text ('\\' :: '"' :: rest) = emit '"' (read .text rest) := by
  rw [follows.opening]
  exact follows.letter rfl rest

/-- A control character comes back from its number, written in two digits after two zeros. -/
theorem read_code (follows : FollowsEscapes read) {c : Char} (small : c.toNat < 0x100) (rest : List Char) :
    read .text ('\\' :: 'u' :: '0' :: '0' :: upperHexDigit (c.toNat / 16) :: upperHexDigit (c.toNat % 16) :: rest) =
      emit c (read .text rest) := by
  have high := hexValue?_upperHexDigit (c.toNat / 16) (by omega)
  have low := hexValue?_upperHexDigit (c.toNat % 16) (by omega)
  have whole : (((0 * 16 + 0) * 16 + 0) * 16 + c.toNat / 16) * 16 + c.toNat % 16 = c.toNat := by
    omega
  have valid : ((((0 * 16 + 0) * 16 + 0) * 16 + c.toNat / 16) * 16 + c.toNat % 16).isValidChar := by
    rw [whole]
    exact c.valid
  rw [follows.opening, follows.code, follows.digit (d := 0) rfl (by decide), follows.digit (d := 0) rfl (by decide),
    follows.digit high (by decide), follows.lastDigit low valid, whole, Char.ofNat_toNat]

theorem read_escape (follows : FollowsEscapes read) {c : Char} {e : List Char} (h : escape? c = some e)
    (rest : List Char) : read .text (e ++ rest) = emit c (read .text rest) := by
  have letter {c e : Char} (he : escapedChar? c = some e) :
      read .text (['\\', c] ++ rest) = emit e (read .text rest) := by
    rw [List.cons_append, follows.opening]
    exact follows.letter he rest
  unfold escape? at h
  split at h
  case h_7 =>
    split at h
    next => cases h
    next control =>
      cases h
      have small : c.toNat < 0x100 := by
        simp only [isText, Bool.or_eq_true, beq_iff_eq, Bool.and_eq_true, decide_eq_true_eq, bne_iff_ne] at control
        omega
      exact follows.read_code small rest
  all_goals
    cases h
    exact letter rfl

end FollowsEscapes

end MacroDeck.Toml
