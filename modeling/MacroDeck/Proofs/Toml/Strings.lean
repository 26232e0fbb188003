import MacroDeck.Proofs.Toml.Escapes

namespace MacroDeck.Toml

theorem readBasicFrom_basicBody (cs rest : List Char) :
    readBasicFrom .text (basicBody cs ++ '"' :: rest) = some (cs, rest) := by
  induction cs with
  | nil => rfl
  | cons c cs ih =>
    rw [basicBody, List.append_assoc]
    by_cases quote : c = '"'
    · rw [if_pos quote, List.cons_append, List.cons_append, List.nil_append, readBasicFrom_follows.read_quote, ih,
        quote, emit_some]
    · rw [if_neg quote]
      cases he : escape? c with
      | some e => rw [Option.getD_some, readBasicFrom_follows.read_escape he, ih, emit_some]
      | none =>
        obtain ⟨text, notBackslash⟩ := isText_of_escape?_eq_none he
        simp [readBasicFrom, quote, notBackslash, text, ih]

theorem readLiteral_append {cs : List Char} (text : ∀ c ∈ cs, isText c) (unquoted : singleQuote ∉ cs)
    (rest : List Char) : readLiteral (cs ++ singleQuote :: rest) = some (cs, rest) := by
  induction cs with
  | nil => rfl
  | cons c cs ih =>
    obtain ⟨first, text⟩ := List.forall_mem_cons.mp text
    obtain ⟨other, unquoted⟩ := not_or.mp (mt List.mem_cons.mpr unquoted)
    rw [List.cons_append, readLiteral, if_neg (Ne.symm other), if_pos first, ih text unquoted, emit_some]

section

variable {quote : Char} {rest : List Char}

theorem closingQuotes_none (h : quote ∉ rest.head?) : closingQuotes quote rest = ([], rest) := by
  match rest with
  | [] => rfl
  | [a] =>
    have other : a ≠ quote := by simpa using h
    simp [closingQuotes, other]
  | a :: b :: cs =>
    have other : a ≠ quote := by simpa using h
    simp [closingQuotes, other]

theorem closingQuotes_one (h : quote ∉ rest.head?) : closingQuotes quote (quote :: rest) = ([quote], rest) := by
  match rest with
  | [] => simp [closingQuotes]
  | b :: cs =>
    have other : b ≠ quote := by simpa using h
    simp [closingQuotes, other]

theorem closingQuotes_two : closingQuotes quote (quote :: quote :: rest) = ([quote, quote], rest) := by
  simp [closingQuotes]

end

/-- A quote that no two others follow belongs to the text. -/
theorem readMultiBasicFrom_quote {cs : List Char} (h : ¬ ['"', '"'] <+: cs) :
    readMultiBasicFrom .text ('"' :: cs) = emit '"' (readMultiBasicFrom .text cs) := by
  rw [readMultiBasicFrom]
  case x_2 =>
    rintro later - rfl
    exact h ⟨later, rfl⟩
  case x_3 => exact fun _ e => absurd e (by decide)
  simp [isText]

section

variable {c : Char} {cs : List Char} {quotes : Nat}

/-- The first character written for a text is a quote only where the text begins with one that is not escaped. -/
theorem head_multiBasicBody (h : ¬ (c = '"' ∧ quotes < 2)) (tail : List Char) :
    '"' ∉ (multiBasicBody quotes (c :: cs) ++ tail).head? := by
  rw [multiBasicBody]
  split
  next quote =>
    rw [if_neg fun few => h ⟨quote, few⟩]
    simp
  next notQuote =>
    split
    next => simp
    next =>
      rw [List.append_assoc]
      rcases head_written c (multiBasicBody 0 cs ++ tail) with escaped | ⟨-, same⟩
      · simp [escaped]
      · simpa [same] using notQuote

theorem not_pair_of_head {l : List Char} (h : '"' ∉ l.head?) : ¬ ['"', '"'] <+: l := by
  rintro ⟨later, rfl⟩
  exact h rfl

/-- After a quote two more follow only where the text ends with one or two. -/
theorem multiBasicBody_not_pair (h : 1 ≤ quotes) (more : cs ≠ []) (notLast : quotes = 1 → cs ≠ ['"'])
    (tail : List Char) : ¬ ['"', '"'] <+: multiBasicBody quotes cs ++ tail := by
  obtain ⟨c, cs, rfl⟩ := List.exists_cons_of_ne_nil more
  by_cases plain : c = '"' ∧ quotes < 2
  · obtain ⟨rfl, few⟩ := plain
    obtain rfl : quotes = 1 := by omega
    obtain ⟨d, ds, rfl⟩ : ∃ d ds, cs = d :: ds := List.exists_cons_of_ne_nil fun e => notLast rfl (e ▸ rfl)
    have escaped : '"' ∉ (multiBasicBody 2 (d :: ds) ++ tail).head? :=
      head_multiBasicBody (fun h => absurd h.2 (by decide)) tail
    rw [multiBasicBody, if_pos rfl, if_pos few, List.cons_append, List.cons_prefix_cons]
    rintro ⟨-, later, hl⟩
    rw [← hl] at escaped
    exact escaped rfl
  · exact not_pair_of_head (head_multiBasicBody plain tail)

end

theorem readMultiBasicFrom_plain {c : Char} (text : isText c = true ∨ c = '\n') (notQuote : c ≠ '"')
    (notBackslash : c ≠ '\\') (cs : List Char) :
    readMultiBasicFrom .text (c :: cs) = emit c (readMultiBasicFrom .text cs) := by
  rw [readMultiBasicFrom]
  case x_2 => exact fun _ e => absurd e notQuote
  case x_3 =>
    rintro _ rfl
    cases text <;> contradiction
  rw [if_neg notBackslash, if_pos text.symm]

theorem readMultiBasicFrom_body {rest : List Char} (h : '"' ∉ rest.head?) (cs : List Char) (quotes : Nat) :
    readMultiBasicFrom .text (multiBasicBody quotes cs ++ '"' :: '"' :: '"' :: rest) = some (cs, rest) := by
  induction cs generalizing quotes with
  | nil =>
    rw [multiBasicBody, List.nil_append, readMultiBasicFrom, closingQuotes_none h]
  | cons c cs ih =>
    by_cases quote : c = '"'
    · subst quote
      by_cases few : quotes < 2
      · rw [multiBasicBody, if_pos rfl, if_pos few, List.cons_append]
        by_cases last : cs = []
        · rw [last, multiBasicBody, List.nil_append, readMultiBasicFrom, closingQuotes_one h]
        · by_cases lastTwo : quotes + 1 = 1 ∧ cs = ['"']
          · rw [lastTwo.1, lastTwo.2]
            exact congrArg some closingQuotes_two
          · have split := multiBasicBody_not_pair (Nat.le_add_left 1 quotes) last fun one two => lastTwo ⟨one, two⟩
            rw [readMultiBasicFrom_quote (split _), ih, emit_some]
      · rw [multiBasicBody, if_pos rfl, if_neg few, List.cons_append, List.cons_append,
          readMultiBasicFrom_follows.read_quote, ih, emit_some]
    · by_cases newline : c = '\n'
      · rw [multiBasicBody, if_neg quote, if_pos newline, newline, List.cons_append,
          readMultiBasicFrom_plain (.inr rfl) (by decide) (by decide), ih, emit_some]
      · rw [multiBasicBody, if_neg quote, if_neg newline, List.append_assoc]
        cases he : escape? c with
        | some e => rw [Option.getD_some, readMultiBasicFrom_follows.read_escape he, ih, emit_some]
        | none =>
          obtain ⟨text, notBackslash⟩ := isText_of_escape?_eq_none he
          rw [Option.getD_none, List.singleton_append, readMultiBasicFrom_plain (.inl text) quote notBackslash, ih,
            emit_some]

theorem readMultiLiteral_plain {c : Char} {cs : List Char} (text : isText c = true ∨ c = '\n')
    (split : ¬ [singleQuote, singleQuote, singleQuote] <+: c :: cs) :
    readMultiLiteral (c :: cs) = emit c (readMultiLiteral cs) := by
  rw [readMultiLiteral]
  case x_1 =>
    rintro later rfl rfl
    exact split ⟨later, rfl⟩
  case x_2 =>
    rintro _ rfl
    cases text <;> contradiction
  rw [if_pos text.symm]

/-- A text without three quotes in a row begins with three of them, once more are put after it, only if it is made of
quotes alone. -/
theorem not_triple_append {quote : Char} {cs : List Char} (noTriple : hasTriple quote cs = false) (more : cs ≠ [])
    (one : cs ≠ [quote]) (two : cs ≠ [quote, quote]) (tail : List Char) : ¬ [quote, quote, quote] <+: cs ++ tail := by
  rintro ⟨later, hl⟩
  match cs with
  | [] => exact more rfl
  | [a] =>
    simp only [List.cons_append, List.cons.injEq] at hl
    exact one (by rw [hl.1])
  | [a, b] =>
    simp only [List.cons_append, List.cons.injEq] at hl
    exact two (by rw [← hl.1, ← hl.2.1])
  | a :: b :: c :: cs =>
    simp only [List.cons_append, List.cons.injEq] at hl
    obtain ⟨rfl, rfl, rfl, -⟩ := hl
    simp [hasTriple] at noTriple

theorem hasTriple_tail {quote c : Char} {cs : List Char} (h : hasTriple quote (c :: cs) = false) :
    hasTriple quote cs = false := by
  match cs with
  | [] => rfl
  | [_] => rfl
  | _ :: _ :: _ =>
    rw [hasTriple, Bool.or_eq_false_iff] at h
    exact h.2

theorem readMultiLiteral_append {cs rest : List Char} (text : ∀ c ∈ cs, isText c = true ∨ c = '\n')
    (noTriple : hasTriple singleQuote cs = false) (h : singleQuote ∉ rest.head?) :
    readMultiLiteral (cs ++ singleQuote :: singleQuote :: singleQuote :: rest) = some (cs, rest) := by
  induction cs with
  | nil => exact congrArg some (closingQuotes_none h)
  | cons c cs ih =>
    obtain ⟨first, text⟩ := List.forall_mem_cons.mp text
    by_cases one : c :: cs = [singleQuote]
    · rw [one]
      exact congrArg some (closingQuotes_one h)
    · by_cases two : c :: cs = [singleQuote, singleQuote]
      · rw [two]
        exact congrArg some closingQuotes_two
      · have split := not_triple_append noTriple (List.cons_ne_nil c cs) one two (List.replicate 3 singleQuote ++ rest)
        exact (readMultiLiteral_plain first split).trans (congrArg (emit c) (ih text (hasTriple_tail noTriple)))

theorem text_of_literal {cs : List Char} (h : StringForm.of cs = .literal) :
    (∀ c ∈ cs, isText c = true) ∧ singleQuote ∉ cs := by
  unfold StringForm.of at h
  dsimp only at h
  split at h
  next => cases h
  next =>
    split at h
    next plain =>
      simp only [Bool.and_eq_true, Bool.not_eq_true', List.any_eq_false, List.contains_eq_mem,
        decide_eq_false_iff_not] at plain
      obtain ⟨⟨noControls, unquoted⟩, single⟩ := plain
      refine ⟨fun c hc => ?_, unquoted⟩
      have other : c ≠ '\n' := fun e => single (e ▸ hc)
      simpa [needsEscape, other] using noControls c hc
    next => split at h <;> (try split at h) <;> (try split at h) <;> cases h

theorem text_of_multiLiteral {cs : List Char} (h : StringForm.of cs = .multiLiteral) :
    (∀ c ∈ cs, isText c = true ∨ c = '\n') ∧ hasTriple singleQuote cs = false := by
  unfold StringForm.of at h
  dsimp only at h
  split at h
  next => cases h
  next =>
    split at h
    next => cases h
    next =>
      split at h
      next => cases h
      next =>
        split at h
        next plain =>
          simp only [Bool.and_eq_true, Bool.not_eq_true', List.any_eq_false] at plain
          refine ⟨fun c hc => ?_, plain.2⟩
          have unescaped := plain.1 c hc
          by_cases newline : c = '\n'
          · exact .inr newline
          · exact .inl (by simpa [needsEscape, newline] using unescaped)
        next => split at h <;> cases h

/-- Text that goes on behind a string: not with a quote. -/
def Unquoted (rest : List Char) : Prop :=
  '"' ∉ rest.head? ∧ singleQuote ∉ rest.head?

theorem dropFirstBreak_firstBreak {cs body : List Char} (h : '\n' ∉ cs → '\n' ∉ body.head? ∧ '\r' ∉ body.head?) :
    dropFirstBreak (firstBreak cs ++ body) = body := by
  unfold firstBreak
  split
  next => rfl
  next single =>
    obtain ⟨notNewline, notReturn⟩ := h (by simpa using single)
    rw [List.nil_append]
    unfold dropFirstBreak
    split
    next => simp at notNewline
    next => simp at notReturn
    next => rfl

theorem head_basicBody {c : Char} (cs tail : List Char) : '"' ∉ (basicBody (c :: cs) ++ tail).head? := by
  rw [basicBody]
  split
  next => simp
  next notQuote =>
    rw [List.append_assoc]
    rcases head_written c (basicBody cs ++ tail) with escaped | ⟨-, same⟩
    · simp [escaped]
    · simpa [same] using notQuote

theorem readString_basic (cs : List Char) {rest : List Char} (h : '"' ∉ rest.head?) :
    readString ('"' :: (basicBody cs ++ '"' :: rest)) = some (.ofList cs, rest) := by
  have single : ¬ ['"', '"'] <+: basicBody cs ++ '"' :: rest := by
    cases cs with
    | nil =>
      rw [basicBody, List.nil_append, List.cons_prefix_cons]
      rintro ⟨-, later, rfl⟩
      exact h rfl
    | cons c cs => exact not_pair_of_head (head_basicBody cs _)
  rw [readString]
  case x_1 =>
    intro later he
    exact single ⟨later, he.symm⟩
  rw [readBasic, readBasicFrom_basicBody]
  rfl

theorem readString_literal {cs rest : List Char} (text : ∀ c ∈ cs, isText c = true) (unquoted : singleQuote ∉ cs)
    (h : singleQuote ∉ rest.head?) :
    readString (singleQuote :: (cs ++ singleQuote :: rest)) = some (.ofList cs, rest) := by
  have single : ∀ later, cs ++ singleQuote :: rest ≠ singleQuote :: singleQuote :: later := by
    intro later e
    cases cs with
    | nil =>
      obtain ⟨-, rfl⟩ := List.cons.inj e
      exact h rfl
    | cons c cs =>
      obtain ⟨rfl, -⟩ := List.cons.inj e
      exact unquoted List.mem_cons_self
  rw [singleQuote, readString]
  case x_1 => exact fun later e => single later e
  rw [← singleQuote, readLiteral_append text unquoted]
  rfl

theorem readString_multiBasic (cs : List Char) {rest : List Char} (h : '"' ∉ rest.head?) :
    readString ('"' :: '"' :: '"' :: (firstBreak cs ++ (multiBasicBody 0 cs ++ '"' :: '"' :: '"' :: rest))) =
      some (.ofList cs, rest) := by
  rw [readString, dropFirstBreak_firstBreak, readMultiBasicFrom_body h]
  · rfl
  intro single
  cases cs with
  | nil => simp [multiBasicBody]
  | cons c cs =>
    obtain ⟨notNewline, -⟩ := not_or.mp (mt List.mem_cons.mpr single)
    rw [multiBasicBody]
    split
    next => simp
    next =>
      rw [if_neg (Ne.symm notNewline), List.append_assoc]
      rcases head_written c (multiBasicBody 0 cs ++ '"' :: '"' :: '"' :: rest) with escaped | ⟨text, same⟩
      · simp [escaped]
      · have notReturn : '\r' ≠ c := by
          rintro rfl
          cases text
        simpa [same] using ⟨Ne.symm notNewline, Ne.symm notReturn⟩

theorem readString_multiLiteral {cs rest : List Char} (text : ∀ c ∈ cs, isText c = true ∨ c = '\n')
    (noTriple : hasTriple singleQuote cs = false) (h : singleQuote ∉ rest.head?) :
    readString (singleQuote :: singleQuote :: singleQuote ::
      (firstBreak cs ++ (cs ++ singleQuote :: singleQuote :: singleQuote :: rest))) = some (.ofList cs, rest) := by
  have first : '\n' ∉ cs → '\n' ∉ (cs ++ singleQuote :: singleQuote :: singleQuote :: rest).head? ∧
      '\r' ∉ (cs ++ singleQuote :: singleQuote :: singleQuote :: rest).head? := by
    intro single
    cases cs with
    | nil => simp [singleQuote]
    | cons c cs =>
      obtain ⟨notNewline, -⟩ := not_or.mp (mt List.mem_cons.mpr single)
      have notReturn : '\r' ≠ c := by
        rintro rfl
        cases text _ List.mem_cons_self <;> contradiction
      simpa using ⟨Ne.symm notNewline, Ne.symm notReturn⟩
  have opened (X : List Char) : readString (singleQuote :: singleQuote :: singleQuote :: X) =
      (readMultiLiteral (dropFirstBreak X)).map fun r => (.ofList r.1, r.2) := rfl
  rw [opened, dropFirstBreak_firstBreak first, readMultiLiteral_append text noTriple h]
  rfl

/-- Behind what is written for a string no quote may follow, or it would belong to the string. -/
theorem readString_writeString (s : String) {rest : List Char} (h : Unquoted rest) :
    readString (writeString s ++ rest) = some (s, rest) := by
  rw [writeString]
  cases hf : StringForm.of s.toList with
  | basic =>
    have read := readString_basic s.toList h.1
    rw [String.ofList_toList] at read
    simpa using read
  | literal =>
    obtain ⟨text, unquoted⟩ := text_of_literal hf
    have read := readString_literal text unquoted h.2
    rw [String.ofList_toList] at read
    simpa using read
  | multiBasic =>
    have read := readString_multiBasic s.toList h.1
    rw [String.ofList_toList] at read
    simpa using read
  | multiLiteral =>
    obtain ⟨text, noTriple⟩ := text_of_multiLiteral hf
    have read := readString_multiLiteral text noTriple h.2
    rw [String.ofList_toList] at read
    simpa using read

end MacroDeck.Toml
