import MacroDeck.Proofs.Document.Malformed
import MacroDeck.Proofs.KeyValues.Merge

namespace MacroDeck

/-- The text is empty, or a break ends its last line. -/
def Ended (text : String) : Prop :=
  text = "" ∨ text.toList.getLast? = some '\n'

namespace Grammar

section

variable {g : Grammar} {a b : String} {lines later before : List (List Char)} {line : List Char} {m m' : KeyValues}
  {e : LineError}

theorem last_of_ended (ended : Ended a) : ∀ c ∈ a.toList.getLast?, c = '\n' := by
  intro c hc
  rcases ended with rfl | last
  · cases hc
  · exact Option.some.inj (hc.symm.trans last)

theorem linesOf_append_of_ended (ended : Ended a) (b : String) :
    linesOf (a ++ b).toList = linesOf a.toList ++ linesOf b.toList := by
  rw [String.toList_append, linesOf_append (last_of_ended ended)]

theorem FirstMalformed.append (h : g.FirstMalformed lines before line) (later : List (List Char)) :
    g.FirstMalformed (lines ++ later) before line where
  cut := by
    obtain ⟨after, rfl⟩ := h.cut
    exact ⟨after ++ later, by rw [List.append_assoc, List.cons_append]⟩
  sound := h.sound
  malformed := h.malformed

theorem FirstMalformed.after (h : g.FirstMalformed later before line) (sound : ∀ l ∈ lines, ¬ g.Malformed l) :
    g.FirstMalformed (lines ++ later) (lines ++ before) line where
  cut := by
    obtain ⟨after, rfl⟩ := h.cut
    exact ⟨after, (List.append_assoc _ _ _).symm⟩
  sound := List.forall_mem_append.mpr ⟨sound, h.sound⟩
  malformed := h.malformed

theorem readText_append_of_error (ended : Ended a) (failed : g.readText a = .error e) (b : String) :
    g.readText (a ++ b) = .error e := by
  obtain ⟨before, line, first, here⟩ := readText_eq_error_iff.mp failed
  rw [readText_eq_error_iff, linesOf_append_of_ended ended]
  exact ⟨before, line, first.append _, here⟩

theorem readText_append_of_later_error (ended : Ended a) (read : g.readText a = .ok m)
    (failed : g.readText b = .error e) :
    g.readText (a ++ b) = .error (e.movedTo (a.toList.count '\n' + e.line)) := by
  obtain ⟨sound, -⟩ := readText_eq_ok_iff.mp read
  obtain ⟨before, line, first, here⟩ := readText_eq_error_iff.mp failed
  rw [readText_eq_error_iff, linesOf_append_of_ended ended]
  refine ⟨_, line, first.after sound, ?_⟩
  have place : 1 + (linesOf a.toList ++ before).length = a.toList.count '\n' + e.line := by
    rw [line_of_readLine here, List.length_append, length_linesOf (last_of_ended ended)]
    omega
  rw [place]
  exact readLine_movedTo here _

theorem readText_append_of_ok (ended : Ended a) (read : g.readText a = .ok m) (readLater : g.readText b = .ok m') :
    g.readText (a ++ b) = .ok (m.insertAll m'.pairs) := by
  obtain ⟨sound, rfl⟩ := readText_eq_ok_iff.mp read
  obtain ⟨soundLater, rfl⟩ := readText_eq_ok_iff.mp readLater
  rw [readText_eq_ok_iff, linesOf_append_of_ended ended]
  refine ⟨List.forall_mem_append.mpr ⟨sound, soundLater⟩, ?_⟩
  rw [KeyValues.insertAll_ofList, KeyValues.ofList_eq_insertAll, ← KeyValues.insertAll_append, List.filterMap_append]
  rfl

end

/-- Of two texts of which the first ends where a line does, the first error is that of both together. One in the
second text is found as many lines further on as the first has breaks. Without an error the pairs of the second map are
inserted into the first one: its keys keep their places, new ones come after them, and the second map gives the values
of all keys it has. An error of any text tells its first malformed line, counted from one and among all lines. -/
theorem readText_append (g : Grammar) :
    (∀ a b, Ended a →
      (∀ e, g.readText a = .error e → g.readText (a ++ b) = .error e) ∧
      (∀ m e, g.readText a = .ok m → g.readText b = .error e →
        g.readText (a ++ b) = .error (e.movedTo (a.toList.count '\n' + e.line))) ∧
      ∀ m m', g.readText a = .ok m → g.readText b = .ok m' →
        ∃ both, g.readText (a ++ b) = .ok both ∧ both = m.insertAll m'.pairs ∧
          both.keys = m.keys ++ m'.keys.filter (· ∉ m.keys) ∧
          ∀ key, both.get? key = (m'.get? key).or (m.get? key)) ∧
    ∀ text e, g.readText text = .error e ↔ ∃ before line, g.FirstMalformed (linesOf text.toList) before line ∧
      e.line = before.length + 1 ∧ g.readLine e.line line = .error e := by
  refine ⟨fun a b ended => ⟨fun e failed => ?_, fun m e read failed => ?_, fun m m' read readLater => ?_⟩,
    fun text e => readText_eq_error_iff.trans ⟨?_, ?_⟩⟩
  · exact readText_append_of_error ended failed b
  · exact readText_append_of_later_error ended read failed
  · exact ⟨_, readText_append_of_ok ended read readLater, rfl, KeyValues.keys_insertAll m'.distinct,
      KeyValues.get?_insertAll m'.distinct⟩
  · rintro ⟨before, line, first, here⟩
    have place := line_of_readLine here
    exact ⟨before, line, first, place.trans (Nat.add_comm 1 _), place ▸ here⟩
  · rintro ⟨before, line, first, place, here⟩
    exact ⟨before, line, first, Nat.add_comm 1 _ ▸ place ▸ here⟩

/-- A blank line and a comment count, and so does a line that ends with a carriage return. -/
theorem readText_append_past_comment :
    let g : Grammar := {}
    let a := "k = 1\r\n\n# k\n"
    Ended a ∧ (∃ m, g.readText a = .ok m) ∧ g.readText "j = 1\n= 2" = .error (.emptyKey 2) ∧
      g.readText (a ++ "j = 1\n= 2") = .error (.emptyKey 5) := by
  intro g a
  have ended : Ended a := .inr (by decide)
  have read : g.readText a = .ok (.ofList [("k", "1")]) := by decide
  have failed : g.readText "j = 1\n= 2" = .error (.emptyKey 2) := by decide
  have breaks : a.toList.count '\n' = 3 := by decide
  obtain ⟨parts, -⟩ := readText_append g
  obtain ⟨-, moved, -⟩ := parts a "j = 1\n= 2" ended
  have both := moved _ _ read failed
  rw [breaks] at both
  exact ⟨ended, ⟨_, read⟩, failed, both⟩

end Grammar

end MacroDeck
