import MacroDeck.Grammar
import MacroDeck.Proofs.Text.Trim

namespace MacroDeck.Grammar

theorem isComment_eq_false_iff {g : Grammar} {cs : List Char} :
    g.isComment cs = false ↔ ∀ p ∈ g.commentPrefixes, p ≠ "" → ¬ p.toList <+: cs := by
  simp [isComment, List.isPrefixOf_iff_prefix]

theorem unquote_quoted (cs : List Char) : unquote ('"' :: cs ++ ['"']) = cs := by
  simp [unquote]

theorem unquote_subset (cs : List Char) : unquote cs ⊆ cs := by
  unfold unquote
  split
  · split
    · exact fun c hc => List.mem_cons_of_mem _ (List.dropLast_subset _ hc)
    · exact fun c hc => hc
  · exact fun c hc => hc

theorem value_subset (g : Grammar) (cs : List Char) : g.value cs ⊆ cs := by
  unfold value
  split
  · exact unquote_subset cs
  · exact fun c hc => hc

section

variable {g : Grammar} {before after : List Char}

theorem ne_separator (h : g.separator ∉ before) : ∀ c ∈ before, (c != g.separator) = true := by
  intro c hc
  have : c ≠ g.separator := fun e => h (e ▸ hc)
  simpa using this

theorem takeWhile_before (h : g.separator ∉ before) :
    (before ++ g.separator :: after).takeWhile (· != g.separator) = before :=
  takeWhile_run (ne_separator h) (by simp)

theorem dropWhile_before (h : g.separator ∉ before) :
    (before ++ g.separator :: after).dropWhile (· != g.separator) = g.separator :: after :=
  dropWhile_run (ne_separator h) (by simp)

/-- What the search for the separator finds is the separator, with none before it. -/
theorem eq_append_of_dropWhile {cs : List Char} {c : Char} (h : cs.dropWhile (· != g.separator) = c :: after) :
    c = g.separator ∧ g.separator ∉ cs.takeWhile (· != g.separator) ∧
      cs = cs.takeWhile (· != g.separator) ++ g.separator :: after := by
  have found := List.head?_dropWhile_not (· != g.separator) cs
  rw [h] at found
  have eq : c = g.separator := by simpa using found
  refine ⟨eq, fun hm => ?_, ?_⟩
  · simpa using List.mem_takeWhile_imp hm
  · have whole := List.takeWhile_append_dropWhile (p := (· != g.separator)) (l := cs)
    rw [h, eq] at whole
    exact whole.symm

end

theorem readLine_eq_pair_iff {g : Grammar} {number : Nat} {line : List Char} {key value : String} :
    g.readLine number line = .ok (some (key, value)) ↔
      g.isComment (trim line) = false ∧ ∃ before after, trim line = before ++ g.separator :: after ∧
        g.separator ∉ before ∧ trim before ≠ [] ∧ key = .ofList (trim before) ∧
        value = .ofList (g.value (trim after)) := by
  constructor
  · intro h
    unfold readLine at h
    dsimp only at h
    split at h
    · simp at h
    · rename_i said
      simp only [Bool.or_eq_true, List.isEmpty_iff, not_or, Bool.not_eq_true] at said
      split at h
      · simp at h
      · rename_i c after found
        obtain ⟨-, clear, split⟩ := eq_append_of_dropWhile found
        split at h
        · simp at h
        · rename_i named
          simp only [Except.ok.injEq, Option.some.injEq, Prod.mk.injEq] at h
          exact ⟨said.2, _, after, split, clear, by simpa using named, h.1.symm, h.2.symm⟩
  · rintro ⟨said, before, after, split, clear, named, rfl, rfl⟩
    rw [split] at said
    simp [readLine, said, split, takeWhile_before clear, dropWhile_before clear, named]

/-- A key and a text in quotes give just these, whatever is in the text. -/
theorem readLine_quoted {key : List Char} (trimmed : Trimmed key) (named : key ≠ []) (unparted : '=' ∉ key)
    (uncommented : '#' ∉ key.head?) (inner : List Char) (number : Nat) :
    ({} : Grammar).readLine number (key ++ [' ', '=', ' '] ++ ('"' :: inner ++ ['"'])) =
      .ok (some (.ofList key, .ofList inner)) := by
  have blank : ∀ c ∈ [' '], isBlank c := List.forall_mem_singleton.mpr rfl
  have before : trim (key ++ [' ']) = key := trim_between (List.forall_mem_nil _) trimmed blank
  have after : trim (' ' :: ('"' :: inner ++ ['"'])) = '"' :: inner ++ ['"'] := by
    simpa using trim_between blank (trimmed_quoted inner) (List.forall_mem_nil _)
  have begins : (key ++ [' ', '=', ' ']).head? = key.head? := List.head?_append_of_ne_nil _ named
  have whole : Trimmed (key ++ [' ', '=', ' '] ++ ('"' :: inner ++ ['"'])) := by
    refine trimmed_append (by simp) (List.cons_ne_nil _ _) ?_ (trimmed_quoted inner).last
    rw [begins]
    exact trimmed.head
  rw [readLine_eq_pair_iff, whole.trim_eq]
  refine ⟨isComment_eq_false_iff.mpr fun p hp _ hpre => ?_, key ++ [' '], ' ' :: ('"' :: inner ++ ['"']), ?_, ?_, ?_, ?_,
    ?_⟩
  · obtain rfl := List.mem_singleton.mp hp
    obtain ⟨rest, hr⟩ := hpre
    have first := congrArg List.head? hr
    rw [List.append_assoc, List.head?_append_of_ne_nil _ named] at first
    exact uncommented first.symm
  · simp
  · simpa using unparted
  · rw [before]
    exact named
  · rw [before]
  · rw [after, value, if_pos rfl, unquote_quoted]

end MacroDeck.Grammar
