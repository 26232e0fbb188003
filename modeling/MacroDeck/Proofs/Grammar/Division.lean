import MacroDeck.Proofs.Grammar.Line

namespace MacroDeck.Grammar

/-- The parts of a line beside its separator: the key, the blanks after it, those before the value, and the value. -/
structure Parts where
  key : List Char
  gap : List Char
  lead : List Char
  value : List Char
deriving DecidableEq

/-- The parts make up the text. -/
structure Divides (g : Grammar) (text : List Char) (parts : Parts) : Prop where
  whole : text = parts.key ++ parts.gap ++ g.separator :: (parts.lead ++ parts.value)
  named : parts.key ≠ []
  unparted : g.separator ∉ parts.key
  key : Trimmed parts.key
  gap : ∀ c ∈ parts.gap, isBlank c = true ∧ c ≠ g.separator
  lead : ∀ c ∈ parts.lead, isBlank c = true
  value : Trimmed parts.value

/-- A text without blanks around it that says nothing. -/
def Silent (g : Grammar) (text : List Char) : Prop :=
  text = [] ∨ ∃ p ∈ g.commentPrefixes, p ≠ "" ∧ p.toList <+: text

/-- What a value stands for: itself, or what is between its quotes where these are stripped. -/
inductive StandsFor (g : Grammar) : List Char → List Char → Prop
  | quoted (inner : List Char) : g.stripQuotes = true → StandsFor g ('"' :: inner ++ ['"']) inner
  | plain {value : List Char} : (g.stripQuotes = true → ∀ inner, value ≠ '"' :: inner ++ ['"']) →
      StandsFor g value value

/-- What the line of the given number comes to, told by its text without the blanks around it. -/
inductive Form (g : Grammar) (number : Nat) (text : List Char) : Except LineError (Option (String × String)) → Prop
  | silent : g.Silent text → Form g number text (.ok none)
  | keyless : ¬ g.Silent text → text.head? = some g.separator → Form g number text (.error (.emptyKey number))
  | unparted : ¬ g.Silent text → g.separator ∉ text →
      Form g number text (.error (.missingSeparator number g.separator))
  | divided {parts : Parts} {value : List Char} : ¬ g.Silent text → text.head? ≠ some g.separator →
      g.Divides text parts → g.StandsFor parts.value value →
      Form g number text (.ok (some (.ofList parts.key, .ofList value)))

section

variable {g : Grammar} {text : List Char} {parts other : Parts}

theorem silent_iff : (text.isEmpty || g.isComment text) = true ↔ g.Silent text := by
  simp [Silent, isComment, List.isPrefixOf_iff_prefix]

theorem isComment_of_not_silent (said : ¬ g.Silent text) : g.isComment text = false :=
  isComment_eq_false_iff.mpr fun p hp hne hpre => said (.inr ⟨p, hp, hne, hpre⟩)

theorem unquote_of_unquoted {value : List Char} (bare : ∀ inner, value ≠ '"' :: inner ++ ['"']) :
    unquote value = value := by
  unfold unquote
  split
  next rest =>
    split
    next last =>
      obtain ⟨inner, hr⟩ := List.getLast?_eq_some_iff.mp last
      exact absurd (congrArg ('"' :: ·) hr) (bare inner)
    next => rfl
  next => rfl

theorem standsFor_value (g : Grammar) (value : List Char) : g.StandsFor value (g.value value) := by
  by_cases quoted : g.stripQuotes = true ∧ ∃ inner, value = '"' :: inner ++ ['"']
  · obtain ⟨strips, inner, rfl⟩ := quoted
    rw [Grammar.value, if_pos strips, unquote_quoted]
    exact .quoted inner strips
  · have bare : g.stripQuotes = true → ∀ inner, value ≠ '"' :: inner ++ ['"'] :=
      fun strips inner eq => quoted ⟨strips, inner, eq⟩
    have same : g.value value = value := by
      unfold Grammar.value
      split
      next strips => exact unquote_of_unquoted (bare strips)
      next => rfl
    rw [same]
    exact .plain bare

namespace Divides

theorem separator_not_mem (h : g.Divides text parts) : g.separator ∉ parts.key ++ parts.gap := by
  rw [List.mem_append]
  rintro (inKey | inGap)
  · exact h.unparted inKey
  · exact (h.gap _ inGap).2 rfl

theorem separator_mem (h : g.Divides text parts) : g.separator ∈ text := by
  rw [h.whole]
  exact List.mem_append_right _ List.mem_cons_self

theorem trim_before (h : g.Divides text parts) : trim (parts.key ++ parts.gap) = parts.key := by
  simpa using trim_between (List.forall_mem_nil _) h.key fun c hc => (h.gap c hc).1

theorem trim_after (h : g.Divides text parts) : trim (parts.lead ++ parts.value) = parts.value := by
  simpa using trim_between h.lead h.value (List.forall_mem_nil _)

/-- The text before the first separator and the text after it settle all the parts. -/
theorem unique (h : g.Divides text parts) (h' : g.Divides text other) : other = parts := by
  have same := h'.whole.symm.trans h.whole
  have before : other.key ++ other.gap = parts.key ++ parts.gap := by
    have cut := congrArg (List.takeWhile (· != g.separator)) same
    rwa [takeWhile_before h'.separator_not_mem, takeWhile_before h.separator_not_mem] at cut
  have after : other.lead ++ other.value = parts.lead ++ parts.value := by
    rw [before] at same
    exact (List.cons.inj (List.append_cancel_left same)).2
  have key : other.key = parts.key := by rw [← h'.trim_before, before, h.trim_before]
  have value : other.value = parts.value := by rw [← h'.trim_after, after, h.trim_after]
  rw [key] at before
  rw [value] at after
  have gap := List.append_cancel_left before
  have lead := List.append_cancel_right after
  obtain ⟨⟩ := other
  obtain ⟨⟩ := parts
  subst key gap lead value
  rfl

end Divides

/-- A text with a separator that does not come first is divided by the first one that it has. -/
theorem exists_divides (trimmed : Trimmed text) (led : text.head? ≠ some g.separator) (parted : g.separator ∈ text) :
    ∃ parts, g.Divides text parts := by
  obtain ⟨before, after, rfl, clear⟩ := List.eq_append_cons_of_mem parted
  obtain ⟨lead, rest, blankLead, blankRest, hb⟩ := exists_blanks_trim before
  obtain ⟨lead', rest', blankLead', blankRest', ha⟩ := exists_blanks_trim after
  have begins : lead = [] := by
    have whole : before ++ g.separator :: after = lead ++ (trim before ++ rest ++ g.separator :: after) := by
      conv_lhs => rw [hb]
      simp only [List.append_assoc]
    exact (whole ▸ trimmed).blank_before blankLead
  have ends : rest' = [] := by
    have whole : before ++ g.separator :: after = (before ++ g.separator :: (lead' ++ trim after)) ++ rest' := by
      conv_lhs => rw [ha]
      simp only [List.append_assoc, List.cons_append]
    exact (whole ▸ trimmed).blank_after blankRest'
  subst begins ends
  rw [List.nil_append] at hb
  rw [List.append_nil] at ha
  have within : ∀ c ∈ trim before ++ rest, c ∈ before := fun c hc => hb ▸ hc
  refine ⟨⟨trim before, rest, lead', trim after⟩, ?_, ?_, ?_, trimmed_trim before, ?_, blankLead', trimmed_trim after⟩
  · rw [← hb, ← ha]
  · intro keyless
    have none : before = [] := by
      have blank := trim_eq_nil_iff.mp keyless
      exact trimmed.blank_before blank
    rw [none] at led
    exact led rfl
  · exact fun inKey => clear (within _ (List.mem_append_left _ inKey))
  · exact fun c hc => ⟨blankRest c hc, fun eq => clear (eq ▸ within c (List.mem_append_right _ hc))⟩

section

variable {number : Nat} {line : List Char}

theorem readLine_of_silent (silent : g.Silent (trim line)) : g.readLine number line = .ok none := by
  unfold readLine
  dsimp only
  rw [if_pos (silent_iff.mpr silent)]

theorem readLine_of_unparted (said : ¬ g.Silent (trim line)) (unparted : g.separator ∉ trim line) :
    g.readLine number line = .error (.missingSeparator number g.separator) := by
  have none : (trim line).dropWhile (· != g.separator) = [] :=
    List.dropWhile_eq_nil_iff.mpr (ne_separator unparted)
  unfold readLine
  dsimp only
  rw [if_neg (mt silent_iff.mp said), none]

theorem readLine_of_keyless (said : ¬ g.Silent (trim line)) (first : (trim line).head? = some g.separator) :
    g.readLine number line = .error (.emptyKey number) := by
  obtain ⟨after, split⟩ := List.head?_eq_some_iff.mp first
  rw [split] at said
  unfold readLine
  dsimp only
  rw [split, if_neg (mt silent_iff.mp said), ← List.nil_append (g.separator :: after),
    dropWhile_before List.not_mem_nil, takeWhile_before List.not_mem_nil]
  rfl

theorem readLine_of_divides (said : ¬ g.Silent (trim line)) (h : g.Divides (trim line) parts) :
    g.readLine number line = .ok (some (.ofList parts.key, .ofList (g.value parts.value))) := by
  refine readLine_eq_pair_iff.mpr ⟨isComment_of_not_silent said, _, _, h.whole, h.separator_not_mem, ?_, ?_, ?_⟩
  · rw [h.trim_before]
    exact h.named
  · rw [h.trim_before]
  · rw [h.trim_after]

/-- Every line has one of the four forms. -/
theorem form_readLine (g : Grammar) (number : Nat) (line : List Char) :
    g.Form number (trim line) (g.readLine number line) := by
  by_cases said : g.Silent (trim line)
  · rw [readLine_of_silent said]
    exact .silent said
  · by_cases first : (trim line).head? = some g.separator
    · rw [readLine_of_keyless said first]
      exact .keyless said first
    · by_cases parted : g.separator ∈ trim line
      · obtain ⟨parts, division⟩ := exists_divides (trimmed_trim line) first parted
        rw [readLine_of_divides said division]
        exact .divided said first division (standsFor_value g parts.value)
      · rw [readLine_of_unparted said parted]
        exact .unparted said parted

end

end

/-- A line says nothing, lacks a key, lacks the separator or gives a pair, and its text between the outer blanks tells
which. No line lacks a key where the separator is a blank. A line that gives a pair is divided in one way only, and the
pair is the key of that division with what its value stands for. -/
theorem readLine_forms (g : Grammar) (number : Nat) (line : List Char) :
    let text := trim line
    let result := g.readLine number line
    (result = .ok none ↔ g.Silent text) ∧
    (∀ n, result = .error (.emptyKey n) ↔ ¬ g.Silent text ∧ text.head? = some g.separator ∧ n = number) ∧
    (isBlank g.separator → text.head? ≠ some g.separator) ∧
    (∀ n c, result = .error (.missingSeparator n c) ↔
      ¬ g.Silent text ∧ g.separator ∉ text ∧ n = number ∧ c = g.separator) ∧
    (¬ g.Silent text → text.head? ≠ some g.separator → g.separator ∈ text →
      (∃! parts, g.Divides text parts) ∧
        ∃ parts value, g.Divides text parts ∧ g.StandsFor parts.value value ∧
          result = .ok (some (.ofList parts.key, .ofList value))) := by
  intro text result
  have trimmed : Trimmed text := trimmed_trim line
  have form : g.Form number text result := form_readLine g number line
  clear_value text result
  refine ⟨⟨?_, fun silent => ?_⟩, fun n => ⟨?_, ?_⟩, fun blank first => ?_, fun n c => ⟨?_, ?_⟩,
    fun said led parted => ⟨?_, ?_⟩⟩
  · rintro rfl
    cases form with
    | silent silent => exact silent
  · cases form with
    | silent => rfl
    | keyless said | unparted said | divided said => exact absurd silent said
  · rintro rfl
    cases form with
    | keyless said first => exact ⟨said, first, rfl⟩
  · rintro ⟨said, first, rfl⟩
    cases form with
    | silent silent => exact absurd silent said
    | keyless => rfl
    | unparted _ clear => exact absurd (List.mem_of_mem_head? first) clear
    | divided _ led => exact absurd first led
  · have solid := trimmed.head _ first
    rw [blank] at solid
    cases solid
  · rintro rfl
    cases form with
    | unparted said clear => exact ⟨said, clear, rfl, rfl⟩
  · rintro ⟨said, clear, rfl, rfl⟩
    cases form with
    | silent silent => exact absurd silent said
    | keyless _ first => exact absurd (List.mem_of_mem_head? first) clear
    | unparted => rfl
    | divided _ _ division => exact absurd division.separator_mem clear
  · obtain ⟨parts, division⟩ := exists_divides trimmed led parted
    exact ⟨parts, division, fun other division' => division.unique division'⟩
  · cases form with
    | silent silent => exact absurd silent said
    | keyless _ first => exact absurd first led
    | unparted _ clear => exact absurd parted clear
    | divided _ _ division stands => exact ⟨_, _, division, stands, rfl⟩

/-- Blanks on both sides of a separator that is one itself, and a value that is a quote in quotes. -/
theorem readLine_forms_at_blanks :
    let g : Grammar := { separator := ' ' }
    let line := "\tk\t \u3000\"\"\"".toList
    let parts : Parts := ⟨['k'], ['\t'], ['\u3000'], ['"', '"', '"']⟩
    trim line = "k\t \u3000\"\"\"".toList ∧ g.readLine 7 line = .ok (some ("k", "\"")) ∧
      ∀ other, g.Divides (trim line) other → other = parts := by
  intro g line parts
  have text : trim line = "k\t \u3000\"\"\"".toList := by decide
  have read : g.readLine 7 line = .ok (some ("k", "\"")) := by decide
  have division : g.Divides (trim line) parts :=
    ⟨by decide, by decide, by decide, trimmed_iff.mpr (by decide), List.forall_mem_singleton.mpr (by decide),
      List.forall_mem_singleton.mpr (by decide), trimmed_iff.mpr (by decide)⟩
  obtain ⟨silent, -, -, -, pairs⟩ := readLine_forms g 7 line
  have said : ¬ g.Silent (trim line) := by
    rw [← silent, read]
    nofun
  obtain ⟨⟨only, -, unique⟩, -⟩ := pairs said (by decide) (by decide)
  exact ⟨text, read, fun other division' => (unique other division').trans (unique parts division).symm⟩

end MacroDeck.Grammar
