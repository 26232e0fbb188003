import MacroDeck.Proofs.Document.Decoding
import MacroDeck.Proofs.Grammar.Division

namespace MacroDeck.Grammar

/-- The grammar with the quotes around a value as a part of it. -/
def keeping (g : Grammar) : Grammar :=
  { g with stripQuotes := false }

/-- The grammar with the quotes around a value as mere marks of it. -/
def stripping (g : Grammar) : Grammar :=
  { g with stripQuotes := true }

def unquoted (value : String) : String :=
  .ofList (unquote value.toList)

/-- The second value is the first one without the pair of quotes around it, if there is one. -/
inductive Unquotes (value : String) : String → Prop
  | quoted {inner : List Char} : value.toList = '"' :: inner ++ ['"'] → Unquotes value (.ofList inner)
  | bare : (∀ inner, value.toList ≠ '"' :: inner ++ ['"']) → Unquotes value value

theorem unquotes_unquoted (value : String) : Unquotes value (unquoted value) := by
  by_cases quoted : ∃ inner, value.toList = '"' :: inner ++ ['"']
  · obtain ⟨inner, h⟩ := quoted
    rw [unquoted, h, unquote_quoted]
    exact .quoted h
  · have bare : ∀ inner, value.toList ≠ '"' :: inner ++ ['"'] := fun inner h => quoted ⟨inner, h⟩
    rw [unquoted, unquote_of_unquoted bare, String.ofList_toList]
    exact .bare bare

section

variable (g : Grammar)

/-- Neither the test for comments nor the search for the separator looks at what is done with quotes. -/
theorem readLine_stripping (number : Nat) (line : List Char) :
    g.stripping.readLine number line = (g.keeping.readLine number line).map (Option.map (Prod.map id unquoted)) := by
  have comment : g.stripping.isComment (trim line) = g.keeping.isComment (trim line) := rfl
  have separator : g.stripping.separator = g.keeping.separator := rfl
  have value (after : List Char) :
      String.ofList (g.stripping.value after) = unquoted (.ofList (g.keeping.value after)) := by
    rw [unquoted, String.toList_ofList]
    rfl
  unfold readLine
  dsimp only
  rw [comment, separator]
  split
  next => rfl
  next =>
    split
    next => rfl
    next =>
      split
      next => rfl
      next => rw [value]; rfl

/-- Each line does to both maps the same, but for the quotes. -/
theorem readLines_stripping (number : Nat) (lines : List (List Char)) (m : KeyValues) :
    g.stripping.readLines number lines (m.mapValues unquoted) =
      (g.keeping.readLines number lines m).map (KeyValues.mapValues unquoted) := by
  induction lines generalizing number m with
  | nil => rfl
  | cons line rest ih =>
    have stripped := g.readLine_stripping number line
    cases kept : g.keeping.readLine number line with
    | error e =>
      rw [kept] at stripped
      rw [readLines_of_error kept, readLines_of_error stripped]
      rfl
    | ok given =>
      rw [kept] at stripped
      cases given with
      | none => rw [readLines_of_none kept, readLines_of_none stripped, ih]
      | some pair =>
        obtain ⟨key, value⟩ := pair
        have pair' := readLines_of_pair stripped rest (m.mapValues unquoted)
        rw [readLines_of_pair kept, pair', ← ih, ← KeyValues.insert_mapValues]
        rfl

theorem readText_stripping (text : String) :
    g.stripping.readText text = (g.keeping.readText text).map (KeyValues.mapValues unquoted) :=
  g.readLines_stripping 1 (text.toList.splitOn '\n') .empty

/-- Bytes are read as their text, or as that of the lines before the first one that is none. -/
theorem readBytes_stripping (bytes : Bytes) :
    g.stripping.readBytes bytes = (g.keeping.readBytes bytes).map (KeyValues.mapValues unquoted) := by
  cases decoded : utf8Text? bytes with
  | some text =>
    obtain rfl := utf8Text?_eq_some_iff.mp decoded
    rw [readBytes_utf8, readBytes_utf8, readText_stripping]
    cases g.keeping.readText text <;> rfl
  | none =>
    obtain ⟨before, bad, first⟩ := exists_firstBroken decoded
    have lines := hasLines_joinLines (before.map String.toList)
    rw [readBytes_of_firstBroken _ first lines, readBytes_of_firstBroken _ first lines, readText_stripping]
    cases g.keeping.readText (.ofList (joinLines (before.map String.toList))) <;> rfl

end

end MacroDeck.Grammar
