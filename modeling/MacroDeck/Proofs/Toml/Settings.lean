import MacroDeck.Proofs.Text.Delimited
import MacroDeck.Proofs.Toml.Values

namespace MacroDeck.Toml

/-- A name that a key can be written as without quotes. -/
def Bare (name : String) : Prop :=
  name.toList ≠ [] ∧ ∀ c ∈ name.toList, isBareKeyChar c = true

instance (name : String) : Decidable (Bare name) :=
  decidable_of_iff (name.toList ≠ [] ∧ name.toList.all isBareKeyChar = true) (by simp [Bare])

theorem isBareKeyChar_ne {c d : Char} (h : isBareKeyChar c = true) (hd : isBareKeyChar d = false) : c ≠ d := by
  rintro rfl
  simp [h] at hd

theorem skipSpaces_of_head {c : Char} (h : isSpace c = false) (cs : List Char) : skipSpaces (c :: cs) = c :: cs := by
  simp [skipSpaces, h]

section

variable {name : String} {c : Char} {cs rest : List Char}

theorem readKeyPart_bare (bare : Bare name) (stop : ∀ c ∈ rest.head?, isBareKeyChar c = false) :
    readKeyPart (name.toList ++ rest) = some (name, rest) := by
  obtain ⟨nonempty, chars⟩ := bare
  have taken := takeWhile_run chars stop
  have left := dropWhile_run chars stop
  obtain ⟨c, cs, hn⟩ := List.exists_cons_of_ne_nil nonempty
  have first : isBareKeyChar c = true := chars c (hn ▸ List.mem_cons_self)
  have bare : readKeyPart (name.toList ++ rest) =
      if ((name.toList ++ rest).takeWhile isBareKeyChar).isEmpty then none
      else some (.ofList ((name.toList ++ rest).takeWhile isBareKeyChar),
        (name.toList ++ rest).dropWhile isBareKeyChar) := by
    rw [hn, List.cons_append, readKeyPart]
    · exact fun _ e => isBareKeyChar_ne first rfl (List.cons.inj e).1
    · exact fun _ e => isBareKeyChar_ne first rfl (List.cons.inj e).1
  rw [bare, taken, left, String.ofList_toList]
  simp [nonempty]

theorem skipSpaces_bare (bare : Bare name) (rest : List Char) :
    skipSpaces (name.toList ++ rest) = name.toList ++ rest := by
  obtain ⟨c, cs, hn⟩ := List.exists_cons_of_ne_nil bare.1
  have first : isBareKeyChar c = true := bare.2 c (hn ▸ List.mem_cons_self)
  have notBlank := isBareKeyChar_ne first (d := ' ') rfl
  have notTab := isBareKeyChar_ne first (d := '\t') rfl
  rw [hn]
  exact skipSpaces_of_head (by simp [isSpace, notBlank, notTab]) _

/-- A bare name is a key on its own, if after spaces something other than a dot follows. -/
theorem readKey_bare (bare : Bare name) (stop : ∀ c ∈ rest.head?, isBareKeyChar c = false)
    (next : skipSpaces rest = c :: cs) (single : c ≠ '.') :
    readKey (name.toList ++ rest) = some (([], name), c :: cs) := by
  have start := skipSpaces_bare bare rest
  have one : readKeyParts (depthLimit - 1) (name.toList ++ rest) = some ([name], c :: cs) := by
    rw [show depthLimit - 1 = 78 + 1 from rfl, readKeyParts, start, readKeyPart_bare bare stop]
    simp only [Option.bind_eq_bind, Option.bind_some, next]
    split
    next e => exact absurd (List.cons.inj e).1 single
    next => rfl
  rw [readKey, one]
  rfl

theorem skipSpaces_write (setting : Setting) (rest : List Char) :
    skipSpaces (setting.write ++ rest) = setting.write ++ rest := by
  cases setting with
  | text value =>
    obtain ⟨cs, hs | hs⟩ := head_writeString value
    · rw [Setting.write, hs]
      exact skipSpaces_of_head rfl _
    · rw [Setting.write, hs]
      exact skipSpaces_of_head rfl _
  | texts values =>
    match values with
    | [] => rfl
    | [_] => exact skipSpaces_of_head rfl _
    | _ :: _ :: _ => exact skipSpaces_of_head rfl _
  | flag value => cases value <;> rfl

theorem readPair_setting (bare : Bare name) (depth : Nat) (setting : Setting) (rest : List Char) :
    readPair (readValue (depth + 1)) (name.toList ++ (" = ".toList ++ (setting.write ++ '\n' :: rest))) =
      some (([], name, setting.item), '\n' :: rest) := by
  have space (X : List Char) : skipSpaces (' ' :: X) = skipSpaces X := rfl
  have key : readKey (name.toList ++ (" = ".toList ++ (setting.write ++ '\n' :: rest))) =
      some (([], name), '=' :: ' ' :: (setting.write ++ '\n' :: rest)) :=
    readKey_bare bare (by rintro _ ⟨⟩; rfl) rfl (by decide)
  simp only [readPair, key, Option.bind_eq_bind, Option.bind_some, space, skipSpaces_write, readValue_write]
  rfl

/-- A line that begins with a bare name holds a pair. -/
theorem readStatements_pair (bare : Bare name) (bound : Nat) {path : List String} {key : String} {item : Item}
    {left after : List Char}
    (pair : readPair (readValue (depthLimit - 1)) (name.toList ++ rest) = some ((path, key, item), left))
    (ends : lineEnd? left = some after) :
    readStatements (bound + 1) (name.toList ++ rest) =
      (readStatements bound after).map (.pair path key item :: ·) := by
  obtain ⟨c, cs, hn⟩ := List.exists_cons_of_ne_nil bare.1
  have other {d : Char} (hd : isBareKeyChar d = false) {ds : List Char} : c :: (cs ++ rest) ≠ d :: ds :=
    fun e => isBareKeyChar_ne (bare.2 c (hn ▸ List.mem_cons_self)) hd (List.cons.inj e).1
  have start := skipSpaces_bare bare rest
  rw [hn, List.cons_append] at start pair ⊢
  rw [readStatements, start]
  split
  next e => cases e
  next e => exact absurd e (other rfl)
  next e => exact absurd e (other rfl)
  next e => exact absurd e (other rfl)
  next e => exact absurd e (other rfl)
  next e => exact absurd e (other rfl)
  next =>
    simp only [pair, ends, Option.bind_eq_bind, Option.bind_some]
    cases readStatements bound after <;> rfl

theorem readStatements_header (bare : Bare name) (bound : Nat) (rest : List Char) :
    readStatements (bound + 1) ('[' :: (name.toList ++ ']' :: '\n' :: rest)) =
      (readStatements bound rest).map (.header [] name :: ·) := by
  have key : readKey (name.toList ++ ']' :: '\n' :: rest) = some (([], name), ']' :: '\n' :: rest) :=
    readKey_bare bare (by rintro _ ⟨⟩; rfl) rfl (by decide)
  obtain ⟨c, cs, hn⟩ := List.exists_cons_of_ne_nil bare.1
  have single : c ≠ '[' := isBareKeyChar_ne (bare.2 c (hn ▸ List.mem_cons_self)) rfl
  have start (X : List Char) : skipSpaces ('[' :: X) = '[' :: X := rfl
  rw [hn, List.cons_append] at key ⊢
  rw [readStatements, start]
  split
  next e => cases e
  next e => cases e
  next e => cases e
  next e => cases e
  next e => exact absurd (List.cons.inj (List.cons.inj e).2).1 single
  next e =>
    cases e
    have ends : lineEnd? ('\n' :: rest) = some rest := rfl
    simp only [key, ends, Option.bind_eq_bind, Option.bind_some]
    cases readStatements bound rest <;> rfl
  next other => exact absurd rfl (other _)

theorem readStatements_setting (bare : Bare name) (setting : Setting) (bound : Nat) :
    readStatements (bound + 1) (name.toList ++ (" = ".toList ++ (setting.write ++ '\n' :: rest))) =
      (readStatements bound rest).map (.pair [] name setting.item :: ·) :=
  readStatements_pair bare bound (readPair_setting bare 78 setting rest) rfl

end

theorem readStatements_settings {settings : List (String × Setting)} (bare : ∀ s ∈ settings, Bare s.1) (bound : Nat)
    (rest : List Char) :
    readStatements (bound + settings.length) (writeSettings settings ++ rest) =
      (readStatements bound rest).map (settings.map (fun s => .pair [] s.1 s.2.item) ++ ·) := by
  induction settings with
  | nil => cases h : readStatements bound rest <;> simp [writeSettings, h]
  | cons s more ih =>
    obtain ⟨name, setting⟩ := s
    have first : Bare name := bare _ List.mem_cons_self
    have written : writeSettings ((name, setting) :: more) ++ rest =
        name.toList ++ (" = ".toList ++ (setting.write ++ '\n' :: (writeSettings more ++ rest))) := by
      simp [writeSettings]
    rw [written, List.length_cons, ← Nat.add_assoc, readStatements_setting first,
      ih fun s hs => bare s (List.mem_cons_of_mem _ hs), Option.map_map]
    rfl

theorem readStatements_section {name : String} (named : Bare name) {settings : List (String × Setting)}
    (bare : ∀ s ∈ settings, Bare s.1) (bound : Nat) (rest : List Char) :
    readStatements (bound + settings.length + 2) (writeSection name settings ++ rest) =
      (readStatements bound rest).map (.header [] name :: settings.map (fun s => .pair [] s.1 s.2.item) ++ ·) := by
  have written : writeSection name settings ++ rest =
      '\n' :: '[' :: (name.toList ++ ']' :: '\n' :: (writeSettings settings ++ rest)) := by
    simp [writeSection]
  have blankLine (X : List Char) (n : Nat) : readStatements (n + 1) ('\n' :: X) = readStatements n X := rfl
  rw [written, blankLine, readStatements_header named, readStatements_settings bare, Option.map_map]
  rfl

end MacroDeck.Toml
