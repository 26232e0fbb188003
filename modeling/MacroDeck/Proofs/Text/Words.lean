import MacroDeck.Text

namespace MacroDeck

/-- Something, and no blank in it. -/
structure IsWord (word : List Char) : Prop where
  filled : word ≠ []
  solid : ∀ c ∈ word, isBlank c = false

/-- The text has these words in order. There are blanks between any two of them, and there may be more around them. -/
inductive Spaced : List (List Char) → List Char → Prop
  | blank {gap : List Char} : (∀ c ∈ gap, isBlank c = true) → Spaced [] gap
  | word {lead word rest : List Char} {later : List (List Char)} : (∀ c ∈ lead, isBlank c = true) → IsWord word →
      (∀ c ∈ rest.head?, isBlank c = true) → Spaced later rest → Spaced (word :: later) (lead ++ word ++ rest)

section

variable {c : Char} {cs gap lead run rest : List Char} {parts : List (List Char)}

theorem words_cons_of_blank (h : isBlank c = true) (cs : List Char) : words (c :: cs) = words cs := by
  simp [words, leadingWord, h]

theorem words_append_of_blank (h : ∀ c ∈ lead, isBlank c = true) (rest : List Char) :
    words (lead ++ rest) = words rest := by
  induction lead with
  | nil => rfl
  | cons c cs ih =>
    obtain ⟨here, later⟩ := List.forall_mem_cons.mp h
    rw [List.cons_append, words_cons_of_blank here, ih later]

theorem leadingWord_of_blank (h : ∀ c ∈ rest.head?, isBlank c = true) : leadingWord rest = ([], words rest) := by
  cases rest with
  | nil => rfl
  | cons c cs =>
    have here := h c rfl
    simp [words, leadingWord, here]

theorem leadingWord_append (solid : ∀ c ∈ run, isBlank c = false) (stop : ∀ c ∈ rest.head?, isBlank c = true) :
    leadingWord (run ++ rest) = (run, words rest) := by
  induction run with
  | nil => exact leadingWord_of_blank stop
  | cons c cs ih =>
    obtain ⟨here, later⟩ := List.forall_mem_cons.mp solid
    simp [leadingWord, ih later, here]

namespace Spaced

theorem words_eq (h : Spaced parts cs) : words cs = parts := by
  induction h with
  | @blank gap h =>
    have skipped := words_append_of_blank h []
    rwa [List.append_nil] at skipped
  | @word lead word rest later h isWord stop _ ih =>
    have filled : word.isEmpty = false := by simpa using isWord.filled
    rw [List.append_assoc, words_append_of_blank h, words, leadingWord_append isWord.solid stop, ih]
    simp [filled]

theorem cons_blank (h : Spaced parts cs) (blank : isBlank c = true) : Spaced parts (c :: cs) := by
  cases h with
  | blank gap => exact .blank (List.forall_mem_cons.mpr ⟨blank, gap⟩)
  | word lead isWord stop later => exact .word (List.forall_mem_cons.mpr ⟨blank, lead⟩) isWord stop later

/-- What begins a text is its first word, unless a blank does. -/
theorem cons_solid (h : Spaced parts rest) (solid : ∀ c ∈ run, isBlank c = false)
    (stop : ∀ c ∈ rest.head?, isBlank c = true) :
    Spaced (if run.isEmpty then parts else run :: parts) (run ++ rest) := by
  cases run with
  | nil => exact h
  | cons c cs =>
    have unled : ∀ c ∈ ([] : List Char), isBlank c = true := List.forall_mem_nil _
    have spaced := Spaced.word unled ⟨List.cons_ne_nil c cs, solid⟩ stop h
    exact spaced

end Spaced

theorem exists_leadingWord_append (cs : List Char) :
    ∃ rest, cs = (leadingWord cs).1 ++ rest ∧ (∀ c ∈ (leadingWord cs).1, isBlank c = false) ∧
      (∀ c ∈ rest.head?, isBlank c = true) ∧ Spaced (leadingWord cs).2 rest := by
  induction cs with
  | nil => exact ⟨[], rfl, List.forall_mem_nil _, nofun, .blank (List.forall_mem_nil _)⟩
  | cons c cs ih =>
    obtain ⟨rest, whole, solid, stop, spaced⟩ := ih
    cases here : isBlank c with
    | true =>
      have all : Spaced (words cs) cs := by
        have spread := spaced.cons_solid solid stop
        rwa [← whole] at spread
      have lead : leadingWord (c :: cs) = ([], words cs) := by simp [leadingWord, words, here]
      rw [lead]
      exact ⟨c :: cs, rfl, List.forall_mem_nil _, by simpa using here, all.cons_blank here⟩
    | false =>
      have lead : leadingWord (c :: cs) = (c :: (leadingWord cs).1, (leadingWord cs).2) := by simp [leadingWord, here]
      rw [lead]
      exact ⟨rest, congrArg (c :: ·) whole, List.forall_mem_cons.mpr ⟨here, solid⟩, stop, spaced⟩

theorem spaced_words (cs : List Char) : Spaced (words cs) cs := by
  obtain ⟨rest, whole, solid, stop, spaced⟩ := exists_leadingWord_append cs
  have spread := spaced.cons_solid solid stop
  rwa [← whole] at spread

theorem words_eq_iff : words cs = parts ↔ Spaced parts cs :=
  ⟨fun h => h ▸ spaced_words cs, Spaced.words_eq⟩

namespace Spaced

theorem isWord (h : Spaced parts cs) : ∀ word ∈ parts, IsWord word := by
  induction h with
  | blank => exact List.forall_mem_nil _
  | word _ isWord _ _ ih => exact List.forall_mem_cons.mpr ⟨isWord, ih⟩

/-- Only the blanks of a text are in none of its words. -/
theorem flatten_eq (h : Spaced parts cs) : parts.flatten = cs.filter (!isBlank ·) := by
  have dropped {gap : List Char} (blank : ∀ c ∈ gap, isBlank c = true) : gap.filter (!isBlank ·) = [] :=
    List.filter_eq_nil_iff.mpr fun c hc => by simp [blank c hc]
  induction h with
  | blank blank => exact (dropped blank).symm
  | @word lead word rest later blank isWord _ _ ih =>
    have kept : word.filter (!isBlank ·) = word := List.filter_eq_self.mpr fun c hc => by simp [isWord.solid c hc]
    rw [List.flatten_cons, ih, List.filter_append, List.filter_append, dropped blank, kept, List.nil_append]

end Spaced

theorem words_eq_nil_iff : words cs = [] ↔ ∀ c ∈ cs, isBlank c = true := by
  constructor
  · intro none
    cases words_eq_iff.mp none with
    | blank blank => exact blank
  · intro blank
    exact words_eq_iff.mpr (.blank blank)

end

end MacroDeck
