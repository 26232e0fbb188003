import MacroDeck.Proofs.Text.Delimited
import MacroDeck.Text

namespace MacroDeck

/-- The characters that have an escape of their own, with the letter that stands for each. -/
def namedEscapes : List (Char × Char) :=
  [('\x00', '0'), ('\t', 't'), ('\n', 'n'), ('\r', 'r'), ('"', '"'), ('\\', '\\')]

theorem quoteChar_cases (c : Char) :
    (∃ letter, (c, letter) ∈ namedEscapes ∧ quoteChar c = ['\\', letter]) ∨ quoteChar c = hexEscape c ∨
      quoteChar c = [c] ∧ c ≠ '\\' ∧ c ≠ '"' ∧ c ≠ '\n' := by
  unfold quoteChar
  split
  case h_7 notNull notTab notNewline notReturn notQuote notBackslash =>
    split
    next hidden => exact .inr (.inl rfl)
    next shown => exact .inr (.inr ⟨rfl, notBackslash, notQuote, notNewline⟩)
  all_goals exact .inl ⟨_, by decide, rfl⟩

theorem namedEscapes_letter_injective {c d letter : Char} (hc : (c, letter) ∈ namedEscapes)
    (hd : (d, letter) ∈ namedEscapes) : c = d := by
  simp only [namedEscapes, List.mem_cons, Prod.mk.injEq, List.not_mem_nil, or_false] at hc hd
  rcases hc with ⟨rfl, rfl⟩ | ⟨rfl, rfl⟩ | ⟨rfl, rfl⟩ | ⟨rfl, rfl⟩ | ⟨rfl, rfl⟩ | ⟨rfl, rfl⟩ <;>
    exact Eq.symm (by simpa using hd)

theorem namedEscapes_letter_ne {c letter : Char} (h : (c, letter) ∈ namedEscapes) : letter ≠ 'u' ∧ letter ≠ '\n' := by
  have all : ∀ pair ∈ namedEscapes, pair.2 ≠ 'u' ∧ pair.2 ≠ '\n' := by decide
  exact all _ h

theorem hexDigits_injective : ∀ d < 16, ∀ e < 16, Nat.digitChar d = Nat.digitChar e → d = e := by
  decide

theorem delimited_hexEscape : Delimited hexEscape := by
  have number : Delimited fun n => Nat.toDigits 16 n ++ ['\x7d'] :=
    delimited_number (by decide) hexDigits_injective (by decide)
  have code : Function.Injective Char.toNat := fun c d h => Char.toNat_inj.mp h
  intro c d x y same
  unfold hexEscape at same
  simp only [List.cons_append, List.cons.injEq, true_and] at same
  exact number.comap code same

theorem delimited_quoteChar : Delimited quoteChar := by
  intro c d x y same
  rcases quoteChar_cases c with ⟨l, hl, hc⟩ | hc | ⟨hc, ne, -, -⟩ <;>
    rcases quoteChar_cases d with ⟨l', hl', hd⟩ | hd | ⟨hd, ne', -, -⟩
  case inr.inl.inr.inl => exact delimited_hexEscape (hc ▸ hd ▸ same)
  all_goals
    rw [hc, hd] at same
    try unfold hexEscape at same
    simp only [List.cons_append, List.nil_append, List.cons.injEq] at same
  case inl.inl =>
    obtain ⟨-, rfl, rest⟩ := same
    exact ⟨namedEscapes_letter_injective hl hl', rest⟩
  case inl.inr.inl => exact absurd same.2.1 (namedEscapes_letter_ne hl).1
  case inl.inr.inr => exact absurd same.1.symm ne'
  case inr.inl.inl => exact absurd same.2.1.symm (namedEscapes_letter_ne hl').1
  case inr.inl.inr.inr => exact absurd same.1.symm ne'
  case inr.inr.inl => exact absurd same.1 ne
  case inr.inr.inr.inl => exact absurd same.1 ne
  case inr.inr.inr.inr => exact same

/-- No character stands as the quote that ends the text. -/
theorem quoteChar_begins (c : Char) : ∃ first rest, quoteChar c = first :: rest ∧ first ≠ '"' := by
  rcases quoteChar_cases c with ⟨letter, -, hc⟩ | hc | ⟨hc, -, ne, -⟩
  · exact ⟨'\\', [letter], hc, by decide⟩
  · exact ⟨'\\', _, hc, by decide⟩
  · exact ⟨c, [], hc, ne⟩

theorem newline_not_mem_quoteChar (c : Char) : '\n' ∉ quoteChar c := by
  rcases quoteChar_cases c with ⟨letter, hl, hc⟩ | hc | ⟨hc, -, -, ne⟩
  · have other := (namedEscapes_letter_ne hl).2
    simpa [hc] using other.symm
  · have digits : '\n' ∉ Nat.toDigits 16 c.toNat := by
      intro h
      obtain ⟨d, hd, same⟩ := exists_digitChar_of_mem_toDigits (by decide) h
      have other : ∀ d < 16, '\n' ≠ Nat.digitChar d := by decide
      exact other d hd same
    rw [hc]
    unfold hexEscape
    simp [digits]
  · simpa [hc] using ne.symm

theorem quoted_toList (s : String) : (quoted s).toList = '"' :: (s.toList.flatMap quoteChar ++ ['"']) := by
  simp [quoted]

theorem delimited_quoted : Delimited fun s => (quoted s).toList := by
  have body := delimited_quoteChar.list_until quoteChar_begins
  have whole := (body.comap fun _ _ => String.toList_inj.mp).enclose ['"'] []
  intro s t x y same
  simp only [quoted_toList] at same
  apply whole
  simpa using same

theorem newline_not_mem_quoted (s : String) : '\n' ∉ (quoted s).toList := by
  simp [quoted_toList, newline_not_mem_quoteChar]

/-- The items after the first one, each behind its comma. -/
def quotedTail (items : List String) : List Char :=
  items.flatMap fun item => ", ".toList ++ (quoted item).toList

theorem quotedList_nil : (quotedList []).toList = ['[', ']'] := by
  decide

theorem quotedList_cons (item : String) (items : List String) :
    (quotedList (item :: items)).toList = '[' :: ((quoted item).toList ++ (quotedTail items ++ [']'])) := by
  have joined : (", ".intercalate ((item :: items).map quoted)).toList = (quoted item).toList ++ quotedTail items := by
    induction items generalizing item with
    | nil => simp [quotedTail]
    | cons next items ih =>
      rw [List.map_cons, List.map_cons, String.intercalate_cons_cons, String.toList_append, String.toList_append,
        ← List.map_cons, ih]
      simp [quotedTail]
  have brackets : "[".toList = ['['] ∧ "]".toList = [']'] := by decide
  rw [quotedList, String.toList_append, String.toList_append, joined, brackets.1, brackets.2]
  simp

theorem delimited_quotedTail : Delimited fun items => quotedTail items ++ [']'] := by
  have item := delimited_quoted.enclose ", ".toList []
  have parts : Delimited fun s => ", ".toList ++ (quoted s).toList := by simpa using item
  apply parts.list_until
  intro s
  exact ⟨',', ' ' :: (quoted s).toList, rfl, by decide⟩

theorem delimited_quotedList : Delimited fun items => (quotedList items).toList := by
  intro items others x y same
  cases items with
  | nil =>
    cases others with
    | nil => exact ⟨rfl, List.append_cancel_left same⟩
    | cons b bs => simp [quotedList_nil, quotedList_cons, quoted_toList] at same
  | cons a as =>
    cases others with
    | nil => simp [quotedList_nil, quotedList_cons, quoted_toList] at same
    | cons b bs =>
      simp only [quotedList_cons, List.cons_append, List.append_assoc, List.cons.injEq, true_and] at same
      obtain ⟨rfl, later⟩ := delimited_quoted same
      have tails : (quotedTail as ++ [']']) ++ x = (quotedTail bs ++ [']']) ++ y := by simpa using later
      obtain ⟨rfl, rest⟩ := delimited_quotedTail tails
      exact ⟨rfl, rest⟩

theorem newline_not_mem_quotedList (items : List String) : '\n' ∉ (quotedList items).toList := by
  cases items with
  | nil => simp [quotedList_nil]
  | cons item items => simp [quotedList_cons, quotedTail, newline_not_mem_quoted]

end MacroDeck
