import MacroDeck.Proofs.Document.History
import MacroDeck.Proofs.Grammar.Division

namespace MacroDeck

def LineError.line : LineError → Nat
  | .missingSeparator line _ => line
  | .emptyKey line => line

/-- The same fault in another line. -/
def LineError.movedTo (line : Nat) : LineError → LineError
  | .missingSeparator _ separator => .missingSeparator line separator
  | .emptyKey _ => .emptyKey line

namespace Grammar

/-- The line says something and yet gives no pair: it has no separator, or no key before it. -/
def Malformed (g : Grammar) (line : List Char) : Prop :=
  ¬ g.Silent (trim line) ∧ (g.separator ∉ trim line ∨ (trim line).head? = some g.separator)

/-- The first malformed line, and the lines before it. -/
structure FirstMalformed (g : Grammar) (lines before : List (List Char)) (line : List Char) : Prop where
  cut : ∃ after, lines = before ++ line :: after
  sound : ∀ l ∈ before, ¬ g.Malformed l
  malformed : g.Malformed line

section

variable {g : Grammar} {number : Nat} {line : List Char} {lines before : List (List Char)} {m : KeyValues}
  {e : LineError}

theorem readLine_of_sound (sound : ¬ g.Malformed line) (number : Nat) :
    g.readLine number line = .ok (g.said? line) := by
  cases h : g.readLine number line with
  | ok given => rw [said?_of_readLine h]
  | error e =>
    have form := form_readLine g number line
    rw [h] at form
    cases form with
    | keyless said first => exact absurd ⟨said, .inr first⟩ sound
    | unparted said clear => exact absurd ⟨said, .inl clear⟩ sound

theorem exists_error_of_malformed (malformed : g.Malformed line) (number : Nat) :
    ∃ e, g.readLine number line = .error e := by
  obtain ⟨said, clear | first⟩ := malformed
  · exact ⟨_, readLine_of_unparted said clear⟩
  · exact ⟨_, readLine_of_keyless said first⟩

theorem not_malformed_of_readLine {given : Option (String × String)} (read : g.readLine number line = .ok given) :
    ¬ g.Malformed line := by
  intro malformed
  obtain ⟨e, failed⟩ := exists_error_of_malformed malformed number
  rw [read] at failed
  cases failed

theorem line_of_readLine (h : g.readLine number line = .error e) : e.line = number := by
  have form := form_readLine g number line
  rw [h] at form
  cases form <;> rfl

theorem readLine_movedTo (h : g.readLine number line = .error e) (other : Nat) :
    g.readLine other line = .error (e.movedTo other) := by
  have form := form_readLine g number line
  rw [h] at form
  cases form with
  | keyless said first => exact readLine_of_keyless said first
  | unparted said clear => exact readLine_of_unparted said clear

theorem readLines_append_of_sound (sound : ∀ l ∈ lines, ¬ g.Malformed l) (number : Nat) (rest : List (List Char))
    (m : KeyValues) :
    g.readLines number (lines ++ rest) m =
      g.readLines (number + lines.length) rest (m.insertAll (lines.filterMap g.said?)) := by
  induction lines generalizing number m with
  | nil => rfl
  | cons line later ih =>
    obtain ⟨here, sound⟩ := List.forall_mem_cons.mp sound
    have read := readLine_of_sound here number
    have count : number + 1 + later.length = number + (line :: later).length := by
      rw [List.length_cons]
      omega
    rw [List.cons_append]
    cases said : g.said? line with
    | none => rw [readLines_of_none (read.trans (congrArg _ said)), ih sound, count, List.filterMap_cons_none said]
    | some pair =>
      rw [readLines_of_pair (read.trans (congrArg _ said)), ih sound, count, List.filterMap_cons_some said]
      rfl

theorem readLines_of_sound (sound : ∀ l ∈ lines, ¬ g.Malformed l) (number : Nat) (m : KeyValues) :
    g.readLines number lines m = .ok (m.insertAll (lines.filterMap g.said?)) := by
  have read := readLines_append_of_sound sound number [] m
  rwa [List.append_nil] at read

theorem FirstMalformed.readLines (h : g.FirstMalformed lines before line) (number : Nat) (m : KeyValues) :
    ∃ e, g.readLine (number + before.length) line = .error e ∧ g.readLines number lines m = .error e := by
  obtain ⟨after, rfl⟩ := h.cut
  obtain ⟨e, failed⟩ := exists_error_of_malformed h.malformed (number + before.length)
  exact ⟨e, failed, (readLines_append_of_sound h.sound number _ m).trans (readLines_of_error failed _ _)⟩

theorem sound_or_firstMalformed (g : Grammar) (lines : List (List Char)) :
    (∀ l ∈ lines, ¬ g.Malformed l) ∨ ∃ before line, g.FirstMalformed lines before line := by
  rcases none_or_first g.Malformed lines with sound | ⟨before, line, after, cut, sound, malformed⟩
  · exact .inl sound
  · exact .inr ⟨before, line, ⟨after, cut⟩, sound, malformed⟩

theorem readLines_eq_ok_iff {read : KeyValues} :
    g.readLines number lines m = .ok read ↔
      (∀ l ∈ lines, ¬ g.Malformed l) ∧ read = m.insertAll (lines.filterMap g.said?) := by
  constructor
  · intro h
    rcases g.sound_or_firstMalformed lines with sound | ⟨before, line, first⟩
    · rw [readLines_of_sound sound] at h
      exact ⟨sound, (Except.ok.inj h).symm⟩
    · obtain ⟨e, -, failed⟩ := first.readLines number m
      rw [failed] at h
      cases h
  · rintro ⟨sound, rfl⟩
    exact readLines_of_sound sound number m

theorem readLines_eq_error_iff :
    g.readLines number lines m = .error e ↔
      ∃ before line, g.FirstMalformed lines before line ∧ g.readLine (number + before.length) line = .error e := by
  constructor
  · intro h
    rcases g.sound_or_firstMalformed lines with sound | ⟨before, line, first⟩
    · rw [readLines_of_sound sound] at h
      cases h
    · obtain ⟨e', here, failed⟩ := first.readLines number m
      rw [failed] at h
      cases h
      exact ⟨before, line, first, here⟩
  · rintro ⟨before, line, first, here⟩
    obtain ⟨e', here', failed⟩ := first.readLines number m
    rw [here] at here'
    cases here'
    exact failed

end

theorem readText_eq_readLines (g : Grammar) (text : String) :
    g.readText text = g.readLines 1 (linesOf text.toList) .empty :=
  readText_of_hasLines g (hasLines_linesOf text) (single_linesOf text.toList)

section

variable {g : Grammar} {text : String}

theorem readText_eq_ok_iff {m : KeyValues} :
    g.readText text = .ok m ↔
      (∀ line ∈ linesOf text.toList, ¬ g.Malformed line) ∧
        m = .ofList ((linesOf text.toList).filterMap g.said?) := by
  rw [readText_eq_readLines, readLines_eq_ok_iff]
  rfl

theorem readText_eq_error_iff {e : LineError} :
    g.readText text = .error e ↔
      ∃ before line, g.FirstMalformed (linesOf text.toList) before line ∧
        g.readLine (1 + before.length) line = .error e := by
  rw [readText_eq_readLines, readLines_eq_error_iff]

end

end Grammar

end MacroDeck
