import MacroDeck.Proofs.Document.Lines
import MacroDeck.Proofs.Grammar.Line

namespace MacroDeck.Grammar

/-- A key that a line can hold. -/
structure Key (g : Grammar) (key : List Char) : Prop where
  nonempty : key ≠ []
  trimmed : Trimmed key
  unparted : g.separator ∉ key
  single : '\n' ∉ key
  uncommented : ∀ p ∈ g.commentPrefixes, p ≠ "" → ¬ p.toList <+: key

/-- A value that a line can hold. Where no quotes are stripped it must not be changed by trimming, nor lie empty behind
a blank separator. -/
structure Value (g : Grammar) (value : List Char) : Prop where
  single : '\n' ∉ value
  bare : g.stripQuotes = false → Trimmed value ∧ (isBlank g.separator → value ≠ [])

/-- A list of pairs that a text can give. -/
structure Writable (g : Grammar) (pairs : List (String × String)) : Prop where
  distinct : (pairs.map Prod.fst).Nodup
  keys : ∀ pair ∈ pairs, g.Key pair.1.toList
  values : ∀ pair ∈ pairs, g.Value pair.2.toList

def writeValue (g : Grammar) (value : List Char) : List Char :=
  if g.stripQuotes then '"' :: value ++ ['"'] else value

/-- The key, the separator and the value, in quotes if these are stripped. -/
def writeLine (g : Grammar) (pair : String × String) : List Char :=
  pair.1.toList ++ g.separator :: g.writeValue pair.2.toList

def writeText (g : Grammar) (pairs : List (String × String)) : String :=
  .ofList (joinLines (pairs.map g.writeLine))

section

variable {g : Grammar}

theorem key_of_readLine {number : Nat} {line : List Char} {key value : String} (single : '\n' ∉ line)
    (h : g.readLine number line = .ok (some (key, value))) : g.Key key.toList := by
  obtain ⟨said, before, after, split, clear, named, rfl, -⟩ := readLine_eq_pair_iff.mp h
  rw [String.toList_ofList]
  have inLine : trim before ⊆ line := fun c hc =>
    trim_subset line (split ▸ List.mem_append_left _ (trim_subset before hc))
  refine ⟨named, trimmed_trim before, fun hs => clear (trim_subset before hs), fun hn => single (inLine hn), ?_⟩
  intro p hp hne hpre
  have begins : trim before <+: trim line := by
    obtain ⟨w, w', hw, -, hb⟩ := exists_blanks_trim before
    have whole : trim line = w ++ (trim before ++ (w' ++ g.separator :: after)) := by
      calc trim line = before ++ g.separator :: after := split
        _ = w ++ trim before ++ w' ++ g.separator :: after := congrArg (· ++ g.separator :: after) hb
        _ = w ++ (trim before ++ (w' ++ g.separator :: after)) := by simp only [List.append_assoc]
    obtain rfl := (whole ▸ trimmed_trim line).blank_before hw
    exact ⟨_, whole.symm⟩
  exact isComment_eq_false_iff.mp said p hp hne (hpre.trans begins)

theorem value_of_readLine {number : Nat} {line : List Char} {key value : String} (single : '\n' ∉ line)
    (h : g.readLine number line = .ok (some (key, value))) : g.Value value.toList := by
  obtain ⟨-, before, after, split, -, -, -, rfl⟩ := readLine_eq_pair_iff.mp h
  rw [String.toList_ofList]
  refine ⟨fun hn => ?_, fun unstripped => ?_⟩
  · have inAfter := trim_subset after (value_subset g _ hn)
    exact single (trim_subset line (split ▸ List.mem_append_right _ (List.mem_cons_of_mem _ inAfter)))
  · have same : g.value (trim after) = trim after := by simp [value, unstripped]
    rw [same]
    refine ⟨trimmed_trim after, fun blankSeparator empty => ?_⟩
    have blank : ∀ c ∈ g.separator :: after, isBlank c :=
      List.forall_mem_cons.mpr ⟨blankSeparator, trim_eq_nil_iff.mp empty⟩
    cases (split ▸ trimmed_trim line).blank_after blank

/-- No comment prefix that the separator does not occur in reaches beyond the key. -/
theorem Key.isComment_append {key : List Char} (hk : g.Key key)
    (apart : ∀ p ∈ g.commentPrefixes, g.separator ∉ p.toList) (rest : List Char) :
    g.isComment (key ++ g.separator :: rest) = false := by
  refine isComment_eq_false_iff.mpr fun p hp hne hpre => ?_
  have whole : key ++ [g.separator] <+: key ++ g.separator :: rest := ⟨rest, by simp⟩
  rcases List.prefix_or_prefix_of_prefix hpre whole with short | long
  · rcases List.prefix_concat_iff.mp short with eq | shorter
    · exact apart p hp (by simp [eq])
    · exact hk.uncommented p hp hne shorter
  · exact apart p hp (long.subset (by simp))

theorem trim_writeValue {value : List Char} (hv : g.Value value) : trim (g.writeValue value) = g.writeValue value := by
  unfold writeValue
  split
  · exact (trimmed_quoted value).trim_eq
  · rename_i unstripped
    exact (hv.bare (by simpa using unstripped)).1.trim_eq

theorem last_separator_writeValue {value : List Char} (hv : g.Value value) :
    ∀ c ∈ (g.separator :: g.writeValue value).getLast?, isBlank c = false := by
  unfold writeValue
  split
  · have last : ∀ c ∈ ['"'].getLast?, isBlank c = false := fun c hc => by
      cases hc
      rfl
    rwa [← List.cons_append, List.getLast?_append_of_ne_nil _ (List.cons_ne_nil _ _)]
  · rename_i unstripped
    obtain ⟨trimmed, nonempty⟩ := hv.bare (by simpa using unstripped)
    cases value with
    | nil =>
      intro c hc
      cases hc
      simpa using nonempty
    | cons d ds =>
      rw [List.getLast?_cons_cons]
      exact trimmed.last

theorem value_writeValue (g : Grammar) (value : List Char) : g.value (g.writeValue value) = value := by
  unfold Grammar.value writeValue
  split
  · exact unquote_quoted value
  · rfl

theorem readLine_writeLine {pair : String × String} (hk : g.Key pair.1.toList) (hv : g.Value pair.2.toList)
    (apart : ∀ p ∈ g.commentPrefixes, g.separator ∉ p.toList) (number : Nat) :
    g.readLine number (g.writeLine pair) = .ok (some pair) := by
  have trimmed : Trimmed (g.writeLine pair) :=
    trimmed_append hk.nonempty (List.cons_ne_nil _ _) hk.trimmed.head (last_separator_writeValue hv)
  refine readLine_eq_pair_iff.mpr
    ⟨?_, pair.1.toList, g.writeValue pair.2.toList, trimmed.trim_eq, hk.unparted, ?_, ?_, ?_⟩
  · rw [trimmed.trim_eq]
    exact hk.isComment_append apart _
  · rw [hk.trimmed.trim_eq]
    exact hk.nonempty
  · rw [hk.trimmed.trim_eq, String.ofList_toList]
  · rw [trim_writeValue hv, value_writeValue, String.ofList_toList]

theorem single_writeLine {pair : String × String} (sep : g.separator ≠ '\n') (hk : g.Key pair.1.toList)
    (hv : g.Value pair.2.toList) : '\n' ∉ g.writeLine pair := by
  have inValue : '\n' ∉ g.writeValue pair.2.toList := by
    unfold writeValue
    split
    · simp [hv.single]
    · exact hv.single
  simp [writeLine, hk.single, inValue, sep.symm]

theorem writable_of_readText {text : String} {m : KeyValues} (h : g.readText text = .ok m) : g.Writable m.pairs := by
  have given : ∀ pair ∈ m.pairs, ∃ line, '\n' ∉ line ∧ ∃ n, g.readLine n line = .ok (some pair) := by
    intro pair hp
    rcases mem_readLines h hp with old | ⟨line, hl, n, hn⟩
    · cases old
    · exact ⟨line, not_mem_of_mem_splitOn hl, n, hn⟩
  refine ⟨m.distinct, fun pair hp => ?_, fun pair hp => ?_⟩
  · obtain ⟨line, single, n, hn⟩ := given pair hp
    exact key_of_readLine single hn
  · obtain ⟨line, single, n, hn⟩ := given pair hp
    exact value_of_readLine single hn

theorem readText_of_writable {pairs : List (String × String)} {text : String} (sep : g.separator ≠ '\n')
    (apart : ∀ p ∈ g.commentPrefixes, g.separator ∉ p.toList) (h : g.Writable pairs)
    (lines : HasLines text (pairs.map g.writeLine)) : g.readText text = .ok (.ofList pairs) := by
  have read := @readText_pairs _ g pairs g.writeLine id text lines
    (fun pair hp n => readLine_writeLine (h.keys pair hp) (h.values pair hp) apart n)
    (fun pair hp => single_writeLine sep (h.keys pair hp) (h.values pair hp))
  rwa [List.map_id] at read

/-- The maps that texts give are the writable ones, and what is written reads back. -/
theorem readText_image (g : Grammar) (sep : g.separator ≠ '\n')
    (apart : ∀ p ∈ g.commentPrefixes, g.separator ∉ p.toList) (pairs : List (String × String)) :
    ((∃ text m, g.readText text = .ok m ∧ m.pairs = pairs) ↔ g.Writable pairs) ∧
      (g.Writable pairs → ∃ m, m.pairs = pairs ∧ g.readText (g.writeText pairs) = .ok m ∧
        ∀ text, HasLines text (pairs.map g.writeLine) → g.readText text = .ok m) ∧
      ∀ text m, g.readText text = .ok m → g.readText (g.writeText m.pairs) = .ok m := by
  have written (pairs : List (String × String)) (h : g.Writable pairs) :
      g.readText (g.writeText pairs) = .ok (.ofList pairs) :=
    readText_of_writable sep apart h (hasLines_joinLines _)
  refine ⟨⟨?_, fun h => ?_⟩, fun h => ?_, fun text m h => ?_⟩
  · rintro ⟨text, m, h, rfl⟩
    exact writable_of_readText h
  · exact ⟨g.writeText pairs, .ofList pairs, written pairs h, KeyValues.ofList_pairs h.distinct⟩
  · exact ⟨.ofList pairs, KeyValues.ofList_pairs h.distinct, written pairs h,
      fun text lines => readText_of_writable sep apart h lines⟩
  · have same : KeyValues.ofList m.pairs = m := KeyValues.eq_of_pairs (KeyValues.ofList_pairs m.distinct)
    rw [written m.pairs (writable_of_readText h), same]

end

/-- Quotes as separators, an empty comment prefix, and values that begin or end blank. -/
theorem readText_image_at_quote :
    let g : Grammar := { separator := '"', commentPrefixes := ["", "#", "//"] }
    let pairs := [("a b", " \"x\" "), ("/", "\r"), ("k#", "")]
    g.separator ≠ '\n' ∧ (∀ p ∈ g.commentPrefixes, g.separator ∉ p.toList) ∧ g.Writable pairs ∧
      ∃ m, m.pairs = pairs ∧ g.readText (g.writeText pairs) = .ok m := by
  intro g pairs
  have sep : g.separator ≠ '\n' := by decide
  have apart : ∀ p ∈ g.commentPrefixes, g.separator ∉ p.toList := by decide
  have writable : g.Writable pairs := by
    refine ⟨by decide, ?_, ?_⟩
    · intro pair hp
      simp only [pairs, List.mem_cons, List.not_mem_nil, or_false] at hp
      rcases hp with rfl | rfl | rfl <;>
        exact ⟨by decide, trimmed_iff.mpr (by decide), by decide, by decide, by decide⟩
    · intro pair hp
      simp only [pairs, List.mem_cons, List.not_mem_nil, or_false] at hp
      rcases hp with rfl | rfl | rfl <;> exact ⟨by decide, fun unstripped => by cases unstripped⟩
  obtain ⟨m, same, read, -⟩ := (readText_image g sep apart pairs).2.1 writable
  exact ⟨sep, apart, writable, m, same, read⟩

end MacroDeck.Grammar
