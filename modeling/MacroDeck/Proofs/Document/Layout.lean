import MacroDeck.Proofs.Document.Malformed
import Mathlib.Data.List.Forall2

namespace MacroDeck

/-- The second line is the first one with blanks around it. -/
def Padded (line padded : List Char) : Prop :=
  ∃ w w', (∀ c ∈ w, isBlank c) ∧ (∀ c ∈ w', isBlank c) ∧ padded = w ++ line ++ w'

/-- A carriage return before each line break. -/
def withReturns (cs : List Char) : List Char :=
  cs.flatMap fun c => if c = '\n' then ['\r', '\n'] else [c]

section

variable {line padded : List Char}

theorem trim_trim (cs : List Char) : trim (trim cs) = trim cs :=
  (trimmed_trim cs).trim_eq

theorem Padded.trim_eq (h : Padded line padded) : trim padded = trim line := by
  obtain ⟨w, w', hw, hw', rfl⟩ := h
  obtain ⟨v, v', hv, hv', split⟩ := exists_blanks_trim line
  have whole : w ++ line ++ w' = (w ++ v) ++ trim line ++ (v' ++ w') := by
    conv_lhs => rw [split]
    simp only [List.append_assoc]
  rw [whole]
  exact trim_between (List.forall_mem_append.mpr ⟨hw, hv⟩) (trimmed_trim line) (List.forall_mem_append.mpr ⟨hv', hw'⟩)

theorem padded_of_return (h : padded = line ∨ padded = line ++ ['\r']) : Padded line padded := by
  rcases h with rfl | rfl
  · exact ⟨[], [], List.forall_mem_nil _, List.forall_mem_nil _, (List.append_nil _).symm⟩
  · exact ⟨[], ['\r'], List.forall_mem_nil _, List.forall_mem_singleton.mpr rfl, rfl⟩

/-- The return before a break comes at the end of the line that the break has ended. -/
theorem linesOf_withReturns (cs : List Char) :
    List.Forall₂ (fun line returned => returned = line ∨ returned = line ++ ['\r']) (linesOf cs)
      (linesOf (withReturns cs)) := by
  induction cs with
  | nil => exact .nil
  | cons c cs ih =>
    by_cases h : c = '\n'
    · subst h
      have returned : linesOf (withReturns ('\n' :: cs)) = ['\r'] :: linesOf (withReturns cs) := rfl
      rw [returned, linesOf_break]
      exact .cons (.inr rfl) ih
    · have kept : withReturns (c :: cs) = c :: withReturns cs := by
        rw [withReturns, List.flatMap_cons, if_neg h]
        rfl
      rw [kept, linesOf_cons h, linesOf_cons h]
      generalize linesOf cs = lines, linesOf (withReturns cs) = returned at ih ⊢
      cases ih with
      | nil => exact .cons (.inl rfl) .nil
      | cons first rest => exact .cons (first.imp (congrArg _) (congrArg _)) rest

theorem map_trim_of_padded {lines lines' : List (List Char)} (h : List.Forall₂ Padded lines lines') :
    lines'.map trim = lines.map trim := by
  induction h with
  | nil => rfl
  | cons first _ ih => rw [List.map_cons, List.map_cons, first.trim_eq, ih]

end

namespace Grammar

def saysNothing (g : Grammar) (line : List Char) : Bool :=
  (trim line).isEmpty || g.isComment (trim line)

/-- The lines that are neither blank nor comments. -/
def saying (g : Grammar) (lines : List (List Char)) : List (List Char) :=
  lines.filter fun line => !g.saysNothing line

section

variable {g : Grammar} {line : List Char} {lines before : List (List Char)}

theorem readLine_trim (g : Grammar) (number : Nat) (line : List Char) :
    g.readLine number (trim line) = g.readLine number line := by
  unfold readLine
  rw [trim_trim]

theorem readLines_map_trim (g : Grammar) (number : Nat) (lines : List (List Char)) (m : KeyValues) :
    g.readLines number (lines.map trim) m = g.readLines number lines m := by
  induction lines generalizing number m with
  | nil => rfl
  | cons line rest ih =>
    rw [List.map_cons]
    simp only [readLines, readLine_trim, ih]

theorem said?_of_saysNothing (h : g.saysNothing line = true) : g.said? line = none := by
  have read : g.readLine 0 line = .ok none := readLine_of_silent (silent_iff.mp h)
  exact said?_of_readLine read

theorem not_saysNothing_of_malformed (h : g.Malformed line) : g.saysNothing line = false := by
  cases silent : g.saysNothing line with
  | true => exact absurd (silent_iff.mp silent) h.1
  | false => rfl

theorem filterMap_said?_saying (g : Grammar) (lines : List (List Char)) :
    (g.saying lines).filterMap g.said? = lines.filterMap g.said? := by
  rw [saying, List.filterMap_filter]
  refine List.filterMap_congr fun line _ => ?_
  cases silent : g.saysNothing line with
  | true => exact (said?_of_saysNothing silent).symm
  | false => rfl

theorem sound_saying_iff : (∀ l ∈ g.saying lines, ¬ g.Malformed l) ↔ ∀ l ∈ lines, ¬ g.Malformed l := by
  constructor
  · intro sound l hl malformed
    have kept : l ∈ g.saying lines := List.mem_filter.mpr ⟨hl, by simp [not_saysNothing_of_malformed malformed]⟩
    exact sound l kept malformed
  · exact fun sound l hl => sound l (List.mem_of_mem_filter hl)

theorem FirstMalformed.saying (h : g.FirstMalformed lines before line) :
    g.FirstMalformed (g.saying lines) (g.saying before) line where
  cut := by
    obtain ⟨after, rfl⟩ := h.cut
    exact ⟨g.saying after, by simp [Grammar.saying, not_saysNothing_of_malformed h.malformed]⟩
  sound := sound_saying_iff.mpr h.sound
  malformed := h.malformed

/-- The lines up to the first malformed one are those that say something and those that do not. -/
theorem FirstMalformed.place_saying (h : g.FirstMalformed lines before line) :
    1 + (g.saying before).length = 1 + before.length - (lines.take (1 + before.length)).countP g.saysNothing := by
  obtain ⟨after, rfl⟩ := h.cut
  have upTo : (before ++ line :: after).take (1 + before.length) = before ++ [line] := by
    rw [Nat.add_comm, List.append_cons]
    exact List.take_left' (by simp)
  have silent : [line].countP g.saysNothing = 0 := by simp [not_saysNothing_of_malformed h.malformed]
  have parts : before.length = before.countP g.saysNothing + (g.saying before).length := by
    simpa [Grammar.saying, List.countP_eq_length_filter] using
      List.length_eq_countP_add_countP g.saysNothing (l := before)
  rw [upTo, List.countP_append, silent]
  omega

variable {text text' : String}

theorem readText_congr (same : (linesOf text.toList).map trim = (linesOf text'.toList).map trim) :
    g.readText text = g.readText text' := by
  rw [readText_eq_readLines, readText_eq_readLines, ← readLines_map_trim, same, readLines_map_trim]

theorem readText_of_saying (h : HasLines text' (g.saying (linesOf text.toList))) :
    g.readText text' = g.readLines 1 (g.saying (linesOf text.toList)) .empty :=
  readText_of_hasLines g h fun line hl => single_linesOf text.toList line (List.mem_of_mem_filter hl)

theorem readText_saying_eq_ok_iff (h : HasLines text' (g.saying (linesOf text.toList))) {m : KeyValues} :
    g.readText text = .ok m ↔ g.readText text' = .ok m := by
  rw [readText_of_saying h, readText_eq_ok_iff, readLines_eq_ok_iff, sound_saying_iff, filterMap_said?_saying]
  rfl

theorem readText_saying_of_error (h : HasLines text' (g.saying (linesOf text.toList))) {e : LineError}
    (failed : g.readText text = .error e) :
    g.readText text' =
      .error (e.movedTo (e.line - ((linesOf text.toList).take e.line).countP g.saysNothing)) := by
  obtain ⟨before, line, first, here⟩ := readText_eq_error_iff.mp failed
  rw [readText_of_saying h, readLines_eq_error_iff, line_of_readLine here, ← first.place_saying]
  exact ⟨g.saying before, line, first.saying, readLine_movedTo here _⟩

end

/-- Texts of the same lines, but for the blanks around them, come to the same, be it a map or an error; so neither
carriage returns before the line breaks nor indents change anything. A text without its blank lines and comments comes
to the same map, or to the same fault in a line from whose number they are taken off. -/
theorem readText_layout (g : Grammar) :
    (∀ text text', (linesOf text.toList).map trim = (linesOf text'.toList).map trim →
      g.readText text = g.readText text') ∧
    (∀ text, g.readText (.ofList (withReturns text.toList)) = g.readText text) ∧
    (∀ text text', List.Forall₂ Padded (linesOf text.toList) (linesOf text'.toList) →
      g.readText text' = g.readText text) ∧
    ∀ text text', HasLines text' (g.saying (linesOf text.toList)) →
      (∀ m, g.readText text = .ok m ↔ g.readText text' = .ok m) ∧
      ∀ e, g.readText text = .error e → g.readText text' =
        .error (e.movedTo (e.line - ((linesOf text.toList).take e.line).countP g.saysNothing)) := by
  refine ⟨fun text text' same => readText_congr same, fun text => readText_congr ?_,
    fun text text' padded => readText_congr (map_trim_of_padded padded), fun text text' h => ⟨fun m => ?_, fun e => ?_⟩⟩
  · rw [String.toList_ofList]
    exact map_trim_of_padded ((linesOf_withReturns text.toList).imp fun _ _ => padded_of_return)
  · exact readText_saying_eq_ok_iff h
  · exact readText_saying_of_error h

/-- A tab as separator, and a comment that begins with a form feed: neither begins a line without its blanks. -/
theorem readText_layout_with_tabs :
    let g : Grammar := { separator := '\t', commentPrefixes := ["\x0cx", "#"] }
    let text := "\x0cx\ta\n\n # x\r\nb\n"
    HasLines "\x0cx\ta\nb" (g.saying (linesOf text.toList)) ∧
      g.readText text = .error (.missingSeparator 4 '\t') ∧
      g.readText "\x0cx\ta\nb" = .error (.missingSeparator 2 '\t') := by
  intro g text
  have kept : HasLines "\x0cx\ta\nb" (g.saying (linesOf text.toList)) := .inr (by decide)
  let e : LineError := .missingSeparator 4 '\t'
  have failed : g.readText text = .error e := by decide
  have silent : ((linesOf text.toList).take e.line).countP g.saysNothing = 2 := by decide
  obtain ⟨-, -, -, saying⟩ := readText_layout g
  have moved := (saying text _ kept).2 e failed
  rw [silent] at moved
  exact ⟨kept, failed, moved⟩

end Grammar

end MacroDeck
