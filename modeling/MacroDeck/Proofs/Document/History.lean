import MacroDeck.Proofs.Document.Lines
import Mathlib.Data.List.Induction

namespace MacroDeck.Grammar

/-- The pair that a line gives, if it gives one. Its number tells no more than where an error is. -/
def said? (g : Grammar) (line : List Char) : Option (String × String) :=
  (g.readLine 0 line).toOption.join

def carries (g : Grammar) (key : String) (line : List Char) : Bool :=
  (g.said? line).any (·.1 == key)

/-- How many lines stand before the first one that carries the key. -/
def firstLine (g : Grammar) (lines : List (List Char)) (key : String) : Nat :=
  lines.findIdx (g.carries key)

/-- The last of the lines that carry the key gives it the value. -/
def LastGives (g : Grammar) (lines : List (List Char)) (key value : String) : Prop :=
  ∃ line, (lines.filter (g.carries key)).getLast? = some line ∧ g.said? line = some (key, value)

section

variable {g : Grammar} {lines : List (List Char)} {line : List Char} {key value k v : String}

theorem said?_of_readLine {number : Nat} {given : Option (String × String)} (h : g.readLine number line = .ok given) :
    g.said? line = given := by
  unfold said?
  unfold readLine at h ⊢
  dsimp only at h ⊢
  split at h
  next silent =>
    cases h
    rw [if_pos silent]
    rfl
  next spoken =>
    rw [if_neg spoken]
    split at h
    next => cases h
    next =>
      split at h
      next => cases h
      next named =>
        cases h
        rw [if_neg named]
        rfl

theorem carries_iff : g.carries key line = true ↔ ∃ value, g.said? line = some (key, value) := by
  unfold carries
  cases g.said? line with
  | none => simp
  | some pair =>
    obtain ⟨k, v⟩ := pair
    simp

/-- The map that good lines give is that of the pairs they say, in order. -/
theorem readLines_eq_insertAll {number : Nat} {m read : KeyValues} (h : g.readLines number lines m = .ok read) :
    read = m.insertAll (lines.filterMap g.said?) := by
  induction lines generalizing number m with
  | nil =>
    cases h
    rfl
  | cons line rest ih =>
    cases hl : g.readLine number line with
    | error e =>
      rw [readLines_of_error hl] at h
      cases h
    | ok given =>
      have said := said?_of_readLine hl
      cases given with
      | none =>
        rw [readLines_of_none hl] at h
        rw [List.filterMap_cons_none said]
        exact ih h
      | some pair =>
        rw [readLines_of_pair hl] at h
        rw [List.filterMap_cons_some said]
        exact ih h

theorem firstLine_concat (carried : ∃ l ∈ lines, g.carries key l = true) :
    g.firstLine (lines ++ [line]) key = g.firstLine lines key ∧ g.firstLine lines key < lines.length := by
  have before : lines.findIdx (g.carries key) < lines.length := List.findIdx_lt_length.mpr carried
  refine ⟨?_, before⟩
  rw [firstLine, List.findIdx_append, if_pos before]
  rfl

theorem firstLine_concat_new (new : ¬ ∃ l ∈ lines, g.carries key l = true) (carried : g.carries key line = true) :
    g.firstLine (lines ++ [line]) key = lines.length := by
  have notBefore : ¬ lines.findIdx (g.carries key) < lines.length := mt List.findIdx_lt_length.mp new
  rw [firstLine, List.findIdx_append, if_neg notBefore]
  simp [carried]

theorem lastGives_concat :
    g.LastGives (lines ++ [line]) key value ↔
      g.said? line = some (key, value) ∨ g.carries key line = false ∧ g.LastGives lines key value := by
  unfold LastGives
  rw [List.filter_append]
  cases hc : g.carries key line with
  | false =>
    have other : g.said? line ≠ some (key, value) := fun said => by
      simp [carries_iff.mpr ⟨value, said⟩] at hc
    simp [hc, other]
  | true => simp [hc]

end

/-- What the lines of a document make of it: the keys that they carry in the order of their first lines, each with the
value of its last line. -/
structure History (g : Grammar) (lines : List (List Char)) (m : KeyValues) : Prop where
  carried : ∀ key, key ∈ m.keys ↔ ∃ line ∈ lines, g.carries key line = true
  ordered : m.keys.Pairwise fun key later => g.firstLine lines key < g.firstLine lines later
  last : ∀ key value, m.get? key = some value ↔ g.LastGives lines key value

section

variable {g : Grammar} {lines : List (List Char)} {line : List Char} {m : KeyValues}

/-- A further line changes nothing in the order of the keys that are there. -/
theorem History.ordered_concat (h : g.History lines m) (line : List Char) :
    m.keys.Pairwise fun key later => g.firstLine (lines ++ [line]) key < g.firstLine (lines ++ [line]) later := by
  refine h.ordered.imp_of_mem fun {a b} ha hb before => ?_
  rw [(firstLine_concat ((h.carried a).mp ha)).1, (firstLine_concat ((h.carried b).mp hb)).1]
  exact before

/-- A line that says nothing changes nothing of what the lines before it have come to. -/
theorem History.concat_none (h : g.History lines m) (said : g.said? line = none) : g.History (lines ++ [line]) m where
  carried key := by
    have silent : g.carries key line = false := by simp [carries, said]
    simp [h.carried, or_and_right, exists_or, silent]
  ordered := h.ordered_concat line
  last key value := by
    have silent : g.carries key line = false := by simp [carries, said]
    simp [lastGives_concat, said, silent, h.last]

/-- A line with a pair puts a new key after all others, and gives its key the value. -/
theorem History.concat_some (h : g.History lines m) {key value : String} (said : g.said? line = some (key, value)) :
    g.History (lines ++ [line]) (m.insert key value) := by
  have carried (k : String) : g.carries k line = true ↔ k = key := by
    rw [carries, said, Option.any_some, beq_iff_eq, eq_comm]
  refine ⟨fun k => ?_, ?_, fun k v => ?_⟩
  · simp only [List.mem_append, List.mem_singleton, or_and_right, exists_or, exists_eq_left, carried, ← h.carried,
      KeyValues.keys_insert]
    split
    next old => exact ⟨.inl, fun among => among.elim id fun same => same ▸ old⟩
    next => simp
  · rw [KeyValues.keys_insert]
    split
    next => exact h.ordered_concat line
    next new =>
      refine List.pairwise_append.mpr ⟨h.ordered_concat line, List.pairwise_singleton _ _, fun k hk later hl => ?_⟩
      obtain rfl := List.mem_singleton.mp hl
      obtain ⟨same, bound⟩ := firstLine_concat ((h.carried k).mp hk)
      rw [same, firstLine_concat_new (mt (h.carried later).mpr new) ((carried later).mpr rfl)]
      exact bound
  · rw [KeyValues.get?_insert, lastGives_concat, said, ← h.last]
    by_cases hk : k = key
    · subst hk
      have carriedHere : g.carries k line = true := (carried k).mpr rfl
      simp [carriedHere]
    · have silent : g.carries k line = false := by simpa [hk] using carried k
      have other : ¬ key = k := fun e => hk e.symm
      simp [hk, silent, other]

end

theorem history_ofList (g : Grammar) (lines : List (List Char)) :
    g.History lines (.ofList (lines.filterMap g.said?)) := by
  induction lines using List.reverseRecOn with
  | nil =>
    refine ⟨fun key => ?_, List.Pairwise.nil, fun key value => ?_⟩
    · simp [KeyValues.ofList, KeyValues.keys, KeyValues.empty]
    · simp [KeyValues.ofList, KeyValues.get?, KeyValues.empty, LastGives]
  | append_singleton lines line ih =>
    rw [List.filterMap_append]
    cases said : g.said? line with
    | none => simpa [said] using ih.concat_none said
    | some pair =>
      rw [List.filterMap_cons_some said, List.filterMap_nil, KeyValues.ofList_concat]
      exact ih.concat_some said

theorem history_of_readText {g : Grammar} {text : String} {m : KeyValues} (h : g.readText text = .ok m) :
    g.History (text.toList.splitOn '\n') m := by
  have read := readLines_eq_insertAll h
  rw [← KeyValues.ofList_eq_insertAll] at read
  exact read ▸ g.history_ofList _

end MacroDeck.Grammar
