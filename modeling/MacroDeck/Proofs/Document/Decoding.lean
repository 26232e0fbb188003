import MacroDeck.Opener
import MacroDeck.Proofs.Document.Bytes

namespace MacroDeck

theorem utf8_append (s t : String) : utf8 (s ++ t) = utf8 s ++ utf8 t := by
  have chars (u : String) : utf8 u = u.toList.flatMap String.utf8EncodeChar := by
    rw [← utf8_ofList, String.ofList_toList]
  rw [chars, chars, chars, String.toList_append, List.flatMap_append]

theorem utf8_intercalate (lines : List String) :
    utf8 ("\n".intercalate lines) = [Grammar.newlineByte].intercalate (lines.map utf8) := by
  induction lines with
  | nil => rfl
  | cons line rest ih =>
    cases rest with
    | nil => simp
    | cons next rest =>
      have newline : utf8 "\n" = [Grammar.newlineByte] := rfl
      rw [String.intercalate_cons_cons, utf8_append, utf8_append, ih, newline]
      simp

/-- A character of a text that is a line break is one in its bytes. -/
theorem newline_not_mem_of_bytes {line : String} (h : Grammar.newlineByte ∉ utf8 line) : '\n' ∉ line.toList := by
  intro hm
  apply h
  rw [← String.ofList_toList (s := line), utf8_ofList]
  exact List.mem_flatMap.mpr ⟨'\n', hm, List.mem_singleton.mpr rfl⟩

/-- The first line of the bytes that is no text, and the lines before it. What comes after it may be anything. -/
structure FirstBroken (bytes : Bytes) (before : List String) (bad : Bytes) : Prop where
  cut : ∃ after, bytes.splitOn Grammar.newlineByte = before.map utf8 ++ bad :: after
  broken : utf8Text? bad = none

theorem texts_or_broken (lines : List Bytes) :
    (∃ texts : List String, lines = texts.map utf8) ∨
      ∃ before bad after, lines = List.map utf8 before ++ bad :: after ∧ utf8Text? bad = none := by
  induction lines with
  | nil => exact .inl ⟨[], rfl⟩
  | cons line rest ih =>
    cases h : utf8Text? line with
    | none => exact .inr ⟨[], line, rest, rfl, h⟩
    | some text =>
      obtain rfl := utf8Text?_eq_some_iff.mp h
      rcases ih with ⟨texts, rfl⟩ | ⟨before, bad, after, rfl, broken⟩
      · exact .inl ⟨text :: texts, rfl⟩
      · exact .inr ⟨text :: before, bad, after, rfl, broken⟩

/-- Lines that are all texts make a text. So bytes that are none have a line that is none. -/
theorem exists_firstBroken {bytes : Bytes} (h : utf8Text? bytes = none) :
    ∃ before bad, FirstBroken bytes before bad := by
  rcases texts_or_broken (bytes.splitOn Grammar.newlineByte) with ⟨texts, whole⟩ | ⟨before, bad, after, cut, broken⟩
  · have joined : [Grammar.newlineByte].intercalate (bytes.splitOn Grammar.newlineByte) = bytes :=
      List.intercalate_splitOn Grammar.newlineByte
    rw [whole, ← utf8_intercalate] at joined
    rw [← joined, utf8Text?_utf8] at h
    contradiction
  · exact ⟨before, bad, ⟨after, cut⟩, broken⟩

theorem FirstBroken.single {bytes : Bytes} {before : List String} {bad : Bytes} (h : FirstBroken bytes before bad) :
    ∀ line ∈ before.map String.toList, '\n' ∉ line := by
  obtain ⟨after, cut⟩ := h.cut
  intro line hl
  obtain ⟨text, ht, rfl⟩ := List.mem_map.mp hl
  have piece : utf8 text ∈ bytes.splitOn Grammar.newlineByte := by
    rw [cut]
    exact List.mem_append_left _ (List.mem_map_of_mem ht)
  exact newline_not_mem_of_bytes (not_mem_of_mem_splitOn piece)

namespace Grammar

/-- The lines before a broken one are all read, and if they can be, what follows it does not matter. -/
theorem readByteLines_broken (g : Grammar) (number : Nat) (before : List String) {bad : Bytes}
    (broken : utf8Text? bad = none) (after : List Bytes) (m : KeyValues) :
    g.readByteLines number (before.map utf8 ++ bad :: after) m =
      ((g.readLines number (before.map String.toList) m).mapError DocumentError.line >>= fun _ =>
        .error (.io .invalidUtf8)) := by
  induction before generalizing number m with
  | nil =>
    rw [List.map_nil, List.nil_append, readByteLines, broken]
    rfl
  | cons line rest ih =>
    rw [List.map_cons, List.cons_append, readByteLines, utf8Text?_utf8, List.map_cons]
    cases h : g.readLine number line.toList with
    | error e =>
      rw [readLines_of_error h]
      simp only [h]
      rfl
    | ok given =>
      cases given with
      | none =>
        rw [readLines_of_none h, ← ih]
        simp only [h]
      | some pair =>
        rw [readLines_of_pair h, ← ih]
        simp only [h]

theorem readBytes_of_firstBroken (g : Grammar) {bytes : Bytes} {before : List String} {bad : Bytes}
    (h : FirstBroken bytes before bad) {text : String} (lines : HasLines text (before.map String.toList)) :
    g.readBytes bytes =
      ((g.readText text).mapError DocumentError.line >>= fun _ => .error (.io .invalidUtf8)) := by
  obtain ⟨after, cut⟩ := h.cut
  rw [readBytes, cut, readByteLines_broken g 1 before h.broken, readText_of_hasLines g lines h.single]

end Grammar

theorem Opener.readPairs_ok (o : Opener) (path : Path) (bytes : Bytes) :
    o.readPairs path (.ok bytes) = (o.grammar.readBytes bytes).mapError fun
      | .line e => .line e
      | .io cause => .io path cause := by
  simp only [readPairs]
  cases o.grammar.readBytes bytes with
  | ok m => rfl
  | error e => cases e <;> rfl

/-- Bytes that are a text are read as that text, be it by themselves or as a file. Of others the text of the lines
before the first broken one is read, whether or not a break ends it; no bytes after it can save them. -/
theorem readBytes_as_readText (o : Opener) (path : Path) (bytes : Bytes) :
    (∀ text, utf8Text? bytes = some text →
      o.grammar.readBytes bytes = (o.grammar.readText text).mapError .line ∧
      o.readPairs path (.ok bytes) = (o.grammar.readText text).mapError .line) ∧
    (utf8Text? bytes = none → ∃ before bad, FirstBroken bytes before bad) ∧
    ∀ before bad, FirstBroken bytes before bad → ∀ text, HasLines text (before.map String.toList) →
      o.grammar.readBytes bytes =
        ((o.grammar.readText text).mapError DocumentError.line >>= fun _ => .error (.io .invalidUtf8)) ∧
      o.readPairs path (.ok bytes) =
        ((o.grammar.readText text).mapError FileError.line >>= fun _ => .error (.io path .invalidUtf8)) := by
  refine ⟨fun text decoded => ?_, exists_firstBroken, fun before bad h text lines => ?_⟩
  · obtain rfl := utf8Text?_eq_some_iff.mp decoded
    have read := o.grammar.readBytes_utf8 text
    refine ⟨read, ?_⟩
    rw [Opener.readPairs_ok, read]
    cases o.grammar.readText text <;> rfl
  · have read := o.grammar.readBytes_of_firstBroken h lines
    refine ⟨read, ?_⟩
    rw [Opener.readPairs_ok, read]
    cases o.grammar.readText text <;> rfl

/-- A comment that is no text ends the reading, however good the lines after it are. -/
theorem readBytes_as_readText_in_comment :
    let bytes := utf8 "f1 = a" ++ [0x0A, 0x23, 0xFF, 0x0A] ++ utf8 "f2 = b"
    FirstBroken bytes ["f1 = a"] [0x23, 0xFF] ∧ HasLines "f1 = a\n" [['f', '1', ' ', '=', ' ', 'a']] ∧
      ({} : Grammar).readBytes bytes = .error (.io .invalidUtf8) := by
  intro bytes
  have first : FirstBroken bytes ["f1 = a"] [0x23, 0xFF] := ⟨⟨[utf8 "f2 = b"], by decide⟩, by decide⟩
  have lines : HasLines "f1 = a\n" [['f', '1', ' ', '=', ' ', 'a']] := .inl (by decide)
  have read := ((readBytes_as_readText {} ⟨[]⟩ bytes).2.2 _ _ first "f1 = a\n" lines).1
  refine ⟨first, lines, read.trans ?_⟩
  rfl

end MacroDeck
