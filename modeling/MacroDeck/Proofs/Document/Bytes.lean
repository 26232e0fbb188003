import MacroDeck.Proofs.Document.Lines

namespace MacroDeck

theorem utf8_ofList (cs : List Char) : utf8 (.ofList cs) = cs.flatMap String.utf8EncodeChar := by
  rw [utf8, String.toUTF8_eq_toByteArray, String.toByteArray_ofList]
  simp [List.utf8Encode]

theorem utf8_ofList_cons (c : Char) (cs : List Char) :
    utf8 (.ofList (c :: cs)) = String.utf8EncodeChar c ++ utf8 (.ofList cs) := by
  rw [utf8_ofList, utf8_ofList, List.flatMap_cons]

theorem encode_ascii {b : UInt8} (h : b < 0x80) : String.utf8EncodeChar (Char.ofNat b.toNat) = [b] := by
  have small : b.toNat < 128 := UInt8.lt_iff_toNat_lt.mp h
  have valid : b.toNat.isValidChar := .inl (by omega)
  have code : (Char.ofNat b.toNat).val.toNat = b.toNat := by
    rw [Char.ofNat, dif_pos valid]
    rfl
  unfold String.utf8EncodeChar
  simp only [code]
  rw [if_pos (by omega), UInt8.ofNat_toNat]

/-- ASCII bytes are a text. -/
theorem utf8Text?_ascii {bytes : Bytes} (h : ∀ b ∈ bytes, b < 0x80) : ∃ text, utf8Text? bytes = some text := by
  refine ⟨.ofList (bytes.map fun b => Char.ofNat b.toNat), utf8Text?_eq_some_iff.mpr ?_⟩
  rw [utf8_ofList]
  induction bytes with
  | nil => rfl
  | cons b rest ih =>
    rw [List.map_cons, List.flatMap_cons, encode_ascii (h b List.mem_cons_self),
      ← ih fun c hc => h c (List.mem_cons_of_mem b hc)]
    rfl

namespace Grammar

theorem newlineByte_not_mem_encode {c : Char} (h : c ≠ '\n') : newlineByte ∉ String.utf8EncodeChar c := by
  have code : c.val.toNat ≠ 10 := fun e => h (Char.ext (UInt32.toNat_inj.mp e))
  have other {n : Nat} (small : n < 256) (ne : n ≠ 10) : newlineByte ≠ UInt8.ofNat n := by
    intro e
    have same := congrArg UInt8.toNat e
    simp only [newlineByte, UInt8.reduceToNat, UInt8.toNat_ofNat'] at same
    omega
  unfold String.utf8EncodeChar
  intro hm
  dsimp only at hm
  split at hm
  · rcases List.mem_singleton.mp hm with e
    exact other (by omega) code e
  · split at hm
    · simp only [List.mem_cons, List.not_mem_nil, or_false] at hm
      rcases hm with e | e <;> exact other (by omega) (by omega) e
    · split at hm
      · simp only [List.mem_cons, List.not_mem_nil, or_false] at hm
        rcases hm with e | e | e <;> exact other (by omega) (by omega) e
      · simp only [List.mem_cons, List.not_mem_nil, or_false] at hm
        rcases hm with e | e | e | e <;> exact other (by omega) (by omega) e

theorem splitOn_utf8 (cs : List Char) :
    (utf8 (.ofList cs)).splitOn newlineByte = (cs.splitOn '\n').map fun line => utf8 (.ofList line) := by
  induction cs with
  | nil => rfl
  | cons c cs ih =>
    rw [utf8_ofList_cons]
    by_cases h : c = '\n'
    · subst h
      have encoded : String.utf8EncodeChar '\n' = [] ++ [newlineByte] := rfl
      rw [encoded, List.append_assoc, List.singleton_append,
        List.splitOn_append_cons_self_of_not_mem List.not_mem_nil, ih,
        ← List.nil_append ('\n' :: cs), List.splitOn_append_cons_self_of_not_mem List.not_mem_nil]
      rfl
    · have single : '\n' ∉ [c] := by simpa using Ne.symm h
      obtain ⟨first, rest, hs⟩ := List.exists_cons_of_ne_nil (List.splitOn_ne_nil '\n' cs)
      rw [splitOn_append_of_not_mem (newlineByte_not_mem_encode h), ih, ← List.singleton_append,
        splitOn_append_of_not_mem single, hs]
      exact congrArg (· :: rest.map fun line => utf8 (.ofList line)) (utf8_ofList_cons c first).symm

theorem readByteLines_utf8 (g : Grammar) (number : Nat) (lines : List (List Char)) (m : KeyValues) :
    g.readByteLines number (lines.map fun line => utf8 (.ofList line)) m =
      (g.readLines number lines m).mapError .line := by
  induction lines generalizing number m with
  | nil => rfl
  | cons line rest ih =>
    rw [List.map_cons, readByteLines, utf8Text?_utf8]
    simp only [String.toList_ofList]
    cases h : g.readLine number line with
    | error e =>
      rw [readLines_of_error h]
      rfl
    | ok given =>
      cases given with
      | none => rw [readLines_of_none h, ← ih]
      | some pair => rw [readLines_of_pair h, ← ih]

/-- The bytes of a text say what the text says. -/
theorem readBytes_utf8 (g : Grammar) (text : String) : g.readBytes (utf8 text) = (g.readText text).mapError .line := by
  have cut : (utf8 text).splitOn newlineByte = (text.toList.splitOn '\n').map fun line => utf8 (.ofList line) := by
    rw [← splitOn_utf8, String.ofList_toList]
  rw [readBytes, cut, readByteLines_utf8, readText]

end Grammar

end MacroDeck
