import MacroDeck.Grammar
import MacroDeck.Proofs.KeyValues.Lookup
import MacroDeck.Proofs.Text.Lines
import MacroDeck.Proofs.Text.Trim

namespace MacroDeck.Grammar

section

variable {g : Grammar} {number : Nat} {line : List Char}

theorem readLines_of_none (h : g.readLine number line = .ok none) (rest : List (List Char)) (m : KeyValues) :
    g.readLines number (line :: rest) m = g.readLines (number + 1) rest m := by
  rw [readLines, h]
  rfl

theorem readLines_of_pair {pair : String × String} (h : g.readLine number line = .ok (some pair))
    (rest : List (List Char)) (m : KeyValues) :
    g.readLines number (line :: rest) m = g.readLines (number + 1) rest (m.insert pair.1 pair.2) := by
  rw [readLines, h]
  rfl

theorem readLines_of_error {e : LineError} (h : g.readLine number line = .error e) (rest : List (List Char))
    (m : KeyValues) : g.readLines number (line :: rest) m = .error e := by
  rw [readLines, h]
  rfl

end

/-- Every pair of the map that the lines give was there before or is the pair of one of them. -/
theorem mem_readLines {g : Grammar} {number : Nat} {lines : List (List Char)} {m read : KeyValues}
    (h : g.readLines number lines m = .ok read) {pair : String × String} (hp : pair ∈ read.pairs) :
    pair ∈ m.pairs ∨ ∃ line ∈ lines, ∃ n, g.readLine n line = .ok (some pair) := by
  induction lines generalizing number m with
  | nil =>
    cases h
    exact .inl hp
  | cons line rest ih =>
    cases hl : g.readLine number line with
    | error e =>
      rw [readLines_of_error hl] at h
      cases h
    | ok given =>
      cases given with
      | none =>
        rw [readLines_of_none hl] at h
        refine (ih h).imp_right ?_
        rintro ⟨l, hm, n, hn⟩
        exact ⟨l, List.mem_cons_of_mem _ hm, n, hn⟩
      | some added =>
        rw [readLines_of_pair hl] at h
        rcases ih h with before | ⟨l, hm, n, hn⟩
        · rcases mem_putPair before with rfl | before
          · exact .inr ⟨line, List.mem_cons_self, number, hl⟩
          · exact .inl before
        · exact .inr ⟨l, List.mem_cons_of_mem _ hm, n, hn⟩

/-- An empty line at the end says nothing. -/
theorem readLines_concat_nil (g : Grammar) (number : Nat) (lines : List (List Char)) (m : KeyValues) :
    g.readLines number (lines ++ [[]]) m = g.readLines number lines m := by
  induction lines generalizing number m with
  | nil =>
    have blank : g.readLine number [] = .ok none := rfl
    rw [List.nil_append, readLines_of_none blank]
    rfl
  | cons line rest ih =>
    rw [List.cons_append]
    cases h : g.readLine number line with
    | error e => rw [readLines_of_error h, readLines_of_error h]
    | ok given =>
      cases given with
      | none => rw [readLines_of_none h, readLines_of_none h, ih]
      | some pair => rw [readLines_of_pair h, readLines_of_pair h, ih]

/-- Whether or not a break ends the last line, the text says what its lines say. -/
theorem readText_of_hasLines (g : Grammar) {text : String} {lines : List (List Char)} (h : HasLines text lines)
    (single : ∀ line ∈ lines, '\n' ∉ line) : g.readText text = g.readLines 1 lines .empty := by
  rw [readText]
  rcases h.splitOn single with cut | cut
  · rw [cut, readLines_concat_nil]
  · rw [cut]

section

variable {α : Type} {g : Grammar} {entries : List α} {line : α → List Char} {pair : α → String × String}

/-- Lines that give a pair each, whatever their numbers, add these pairs in order. -/
theorem readLines_pairs (gives : ∀ e ∈ entries, ∀ n, g.readLine n (line e) = .ok (some (pair e))) (number : Nat)
    (rest : List (List Char)) (m : KeyValues) :
    g.readLines number (entries.map line ++ rest) m =
      g.readLines (number + entries.length) rest (m.insertAll (entries.map pair)) := by
  induction entries generalizing number m with
  | nil => rfl
  | cons e es ih =>
    have first := gives e List.mem_cons_self number
    rw [List.map_cons, List.cons_append, readLines_of_pair first,
      ih fun e' he => gives e' (List.mem_cons_of_mem _ he)]
    simp only [List.length_cons, List.map_cons, KeyValues.insertAll_cons]
    congr 1
    omega

theorem readText_pairs {text : String} (lines : HasLines text (entries.map line))
    (gives : ∀ e ∈ entries, ∀ n, g.readLine n (line e) = .ok (some (pair e)))
    (single : ∀ e ∈ entries, '\n' ∉ line e) : g.readText text = .ok (.ofList (entries.map pair)) := by
  rw [readText_of_hasLines g lines (by simpa using single), ← List.append_nil (entries.map line),
    readLines_pairs gives]
  rfl

end

end MacroDeck.Grammar
