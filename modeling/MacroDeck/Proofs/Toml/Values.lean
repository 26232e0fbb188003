import MacroDeck.Proofs.Toml.Strings
import MacroDeck.Toml.Document

namespace MacroDeck.Toml

/-- The item that a setting is read back as. -/
def Setting.item : Setting → Item
  | text value => .string value
  | texts values => .array (values.map .string)
  | flag value => .boolean value

theorem head_writeString (s : String) : ∃ cs, writeString s = '"' :: cs ∨ writeString s = singleQuote :: cs := by
  unfold writeString
  dsimp only
  split
  · exact ⟨_, .inl rfl⟩
  · exact ⟨_, .inr rfl⟩
  · exact ⟨_, .inl rfl⟩
  · exact ⟨_, .inr rfl⟩

theorem readValue_writeString (depth : Nat) (s : String) {rest : List Char} (h : Unquoted rest) :
    readValue depth (writeString s ++ rest) = some (.string s, rest) := by
  have read := readString_writeString s h
  have text : readValue depth (writeString s ++ rest) = readValue.readText depth (writeString s ++ rest) := by
    obtain ⟨cs, hs | hs⟩ := head_writeString s
    · rw [hs, List.cons_append, readValue]
    · rw [hs, List.cons_append, singleQuote, readValue]
  rw [text, readValue.readText, read]
  rfl

/-- Characters that begin neither a gap nor its end. -/
def Solid (c : Char) : Prop :=
  c ≠ '\n' ∧ c ≠ '\r' ∧ isSpace c = false ∧ c ≠ '#'

instance (c : Char) : Decidable (Solid c) :=
  inferInstanceAs (Decidable (_ ∧ _))

theorem skipGaps_solid {c : Char} (h : Solid c) (cs : List Char) : skipGaps (c :: cs) = some (c :: cs) := by
  obtain ⟨notNewline, notReturn, notSpace, notComment⟩ := h
  rw [skipGaps, skipGapsFrom]
  · simp [notSpace, notComment]
  · exact notNewline
  · exact fun _ e => absurd e notReturn

theorem skipGaps_writeString (s : String) (rest : List Char) :
    skipGaps (writeString s ++ rest) = some (writeString s ++ rest) := by
  obtain ⟨cs, hs | hs⟩ := head_writeString s
  · rw [hs]
    exact skipGaps_solid (by decide) _
  · rw [hs]
    exact skipGaps_solid (by decide) _

theorem writeString_ne_bracket (s : String) (rest later : List Char) : writeString s ++ rest ≠ ']' :: later := by
  obtain ⟨cs, hs | hs⟩ := head_writeString s
  · simp [hs]
  · simp [hs, singleQuote]

/-- The line of an item of a list. -/
def itemLine (s : String) : List Char :=
  "    ".toList ++ writeString s ++ [',', '\n']

theorem skipGaps_itemLine (s : String) (rest : List Char) :
    skipGaps ('\n' :: (itemLine s ++ rest)) = some (writeString s ++ ',' :: '\n' :: rest) := by
  have gap (X : List Char) : skipGaps ('\n' :: ("    ".toList ++ X)) = skipGaps X := rfl
  rw [itemLine, List.append_assoc, List.append_assoc, gap, skipGaps_writeString]
  rfl

section

variable {depth : Nat}

theorem readItems_one (bound : Nat) (s : String) (rest : List Char) :
    readItems (readValue depth) (bound + 1) (writeString s ++ ']' :: rest) = some ([.string s], rest) := by
  have unquoted : Unquoted (']' :: rest) := by simp [Unquoted, singleQuote]
  rw [readItems, readValue_writeString depth s unquoted]
  simp [skipGaps_solid (show Solid ']' by decide)]

theorem readItems_lines (s : String) (more : List String) {bound : Nat} (enough : more.length < bound)
    (rest : List Char) :
    readItems (readValue depth) bound (writeString s ++ ',' :: '\n' :: (more.flatMap itemLine ++ ']' :: rest)) =
      some ((s :: more).map .string, rest) := by
  obtain ⟨bound, rfl⟩ : ∃ n, bound = n + 1 := ⟨bound - 1, by omega⟩
  have unquoted (X : List Char) : Unquoted (',' :: X) := by simp [Unquoted, singleQuote]
  have comma (X : List Char) := skipGaps_solid (show Solid ',' by decide) X
  induction more generalizing s bound with
  | nil =>
    have last : skipGaps ('\n' :: ']' :: rest) = some (']' :: rest) := rfl
    rw [readItems, readValue_writeString depth s (unquoted _)]
    simp [comma, last]
  | cons t more ih =>
    obtain ⟨bound, rfl⟩ : ∃ n, bound = n + 1 := ⟨bound - 1, by simp at enough; omega⟩
    have next := skipGaps_itemLine t (more.flatMap itemLine ++ ']' :: rest)
    have later := ih t bound (by simpa using enough)
    rw [List.flatMap_cons, List.append_assoc, readItems, readValue_writeString depth s (unquoted _)]
    simp only [comma, next, Option.bind_eq_bind, Option.bind_some]
    split
    next e => exact absurd e (writeString_ne_bracket _ _ _)
    next =>
      rw [later]
      rfl

theorem readArray_of_items {cs begun rest : List Char} {items : List Item} (gap : skipGaps cs = some begun)
    (more : ∀ later, begun ≠ ']' :: later)
    (h : readItems (readValue depth) begun.length begun = some (items, rest)) :
    readArray (readValue depth) cs = some (.array items, rest) := by
  simp only [readArray, gap, Option.bind_eq_bind, Option.bind_some]
  rw [h]
  rfl

theorem length_le_itemLines (values : List String) : values.length ≤ (values.flatMap itemLine).length := by
  induction values with
  | nil => exact Nat.le_refl 0
  | cons s more ih =>
    have line : 1 ≤ (itemLine s).length := by simp [itemLine]
    rw [List.flatMap_cons, List.length_append, List.length_cons]
    omega

theorem readValue_writeStrings (values : List String) (rest : List Char) :
    readValue (depth + 1) (writeStrings values ++ rest) = some (.array (values.map .string), rest) := by
  match values with
  | [] => rfl
  | [s] =>
    have written : writeStrings [s] ++ rest = '[' :: (writeString s ++ ']' :: rest) := by simp [writeStrings]
    obtain ⟨n, hn⟩ : ∃ n, (writeString s ++ ']' :: rest).length = n + 1 := ⟨_, by simp; rfl⟩
    rw [written, readValue]
    refine readArray_of_items (skipGaps_writeString s _) (writeString_ne_bracket s _) ?_
    rw [hn]
    exact readItems_one n s rest
  | s :: t :: more =>
    have written : writeStrings (s :: t :: more) ++ rest =
        '[' :: '\n' :: (itemLine s ++ ((t :: more).flatMap itemLine ++ ']' :: rest)) := by
      have lines : writeStrings (s :: t :: more) = '[' :: '\n' :: (s :: t :: more).flatMap itemLine ++ [']'] := rfl
      simp [lines]
    have enough : (t :: more).length <
        (writeString s ++ ',' :: '\n' :: ((t :: more).flatMap itemLine ++ ']' :: rest)).length := by
      have := length_le_itemLines (t :: more)
      simp only [List.length_append, List.length_cons] at this ⊢
      omega
    rw [written, readValue]
    exact readArray_of_items (skipGaps_itemLine s _) (writeString_ne_bracket s _) (readItems_lines s _ enough rest)

end

theorem readValue_flag (depth : Nat) (value : Bool) (rest : List Char) :
    readValue depth ((Setting.flag value).write ++ '\n' :: rest) = some (.boolean value, '\n' :: rest) := by
  cases value <;> cases depth <;> rfl

theorem readValue_write (depth : Nat) (setting : Setting) (rest : List Char) :
    readValue (depth + 1) (setting.write ++ '\n' :: rest) = some (setting.item, '\n' :: rest) := by
  cases setting with
  | text value => exact readValue_writeString _ value (by simp [Unquoted, singleQuote])
  | texts values => exact readValue_writeStrings values _
  | flag value => exact readValue_flag _ value rest

end MacroDeck.Toml
