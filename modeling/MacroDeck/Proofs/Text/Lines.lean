import MacroDeck.Text
import Mathlib.Data.List.Basic

namespace MacroDeck

/-- The lines one after the other, a line break after each. -/
def joinLines (lines : List (List Char)) : List Char :=
  lines.flatMap (· ++ ['\n'])

@[simp] theorem joinLines_cons (line : List Char) (lines : List (List Char)) :
    joinLines (line :: lines) = line ++ '\n' :: joinLines lines := by
  simp [joinLines]

/-- The text is made of these lines, the last one with its line break or without. -/
def HasLines (text : String) (lines : List (List Char)) : Prop :=
  text.toList = joinLines lines ∨ text.toList ++ ['\n'] = joinLines lines

theorem hasLines_joinLines (lines : List (List Char)) : HasLines (.ofList (joinLines lines)) lines :=
  .inl String.toList_ofList

theorem splitOn_joinLines {lines : List (List Char)} (h : ∀ line ∈ lines, '\n' ∉ line) :
    (joinLines lines).splitOn '\n' = lines ++ [[]] := by
  induction lines with
  | nil => rfl
  | cons line rest ih =>
    rw [joinLines_cons, List.splitOn_append_cons_self_of_not_mem (h line List.mem_cons_self),
      ih fun l hl => h l (List.mem_cons_of_mem _ hl)]
    rfl

/-- The cut gives the lines back, and after a last break an empty one. -/
theorem HasLines.splitOn {text : String} {lines : List (List Char)} (h : HasLines text lines)
    (single : ∀ line ∈ lines, '\n' ∉ line) :
    text.toList.splitOn '\n' = lines ++ [[]] ∨ text.toList.splitOn '\n' = lines := by
  rcases h with broken | unbroken
  · rw [broken]
    exact .inl (splitOn_joinLines single)
  · have cut := splitOn_joinLines single
    rw [← unbroken, List.splitOn_append_cons_self] at cut
    exact .inr (List.append_cancel_right cut)

/-- What holds no break lengthens the first piece. -/
theorem splitOn_append_of_not_mem {α : Type} [BEq α] [LawfulBEq α] {a : α} {xs : List α} (h : a ∉ xs)
    (ys : List α) : (xs ++ ys).splitOn a = (ys.splitOn a).modifyHead (xs ++ ·) := by
  induction xs with
  | nil => cases h : ys.splitOn a <;> simp [h]
  | cons x xs ih =>
    obtain ⟨ne, h⟩ := not_or.mp (mt List.mem_cons.mpr h)
    have differs : ¬ (x == a) = true := by simpa using fun e => ne e.symm
    rw [List.cons_append, List.splitOn_cons_eq_if_modifyHead, if_neg differs, ih h, List.modifyHead_modifyHead]
    rfl

theorem not_mem_of_mem_splitOn {α : Type} [BEq α] [LawfulBEq α] {a : α} {xs piece : List α}
    (h : piece ∈ xs.splitOn a) : a ∉ piece := by
  induction xs generalizing piece with
  | nil => simp_all
  | cons x xs ih =>
    rw [List.splitOn_cons_eq_if_modifyHead] at h
    split at h
    · rcases List.mem_cons.mp h with rfl | h
      · simp
      · exact ih h
    · rename_i differs
      obtain ⟨first, rest, hs⟩ := List.exists_cons_of_ne_nil (List.splitOn_ne_nil a xs)
      rw [hs, List.modifyHead_cons] at h
      rcases List.mem_cons.mp h with rfl | h
      · have other : a ≠ x := fun e => differs (by simp [e])
        simpa [other] using ih (hs ▸ List.mem_cons_self)
      · exact ih (hs ▸ List.mem_cons_of_mem _ h)

/-- The lines of a text, without their breaks. What comes after the last break is a line if there is anything. -/
def linesOf : List Char → List (List Char)
  | [] => []
  | c :: cs => if c = '\n' then [] :: linesOf cs else (c :: (linesOf cs).headD []) :: (linesOf cs).tail

section

variable {c : Char} {cs xs : List Char}

theorem linesOf_break (cs : List Char) : linesOf ('\n' :: cs) = [] :: linesOf cs :=
  if_pos rfl

theorem linesOf_cons (h : c ≠ '\n') : linesOf (c :: cs) = (c :: (linesOf cs).headD []) :: (linesOf cs).tail :=
  if_neg h

theorem linesOf_ne_nil (h : cs ≠ []) : linesOf cs ≠ [] := by
  cases cs with
  | nil => exact absurd rfl h
  | cons c cs =>
    unfold linesOf
    split <;> exact List.cons_ne_nil _ _

theorem single_linesOf (cs : List Char) : ∀ line ∈ linesOf cs, '\n' ∉ line := by
  induction cs with
  | nil => exact List.forall_mem_nil _
  | cons c cs ih =>
    by_cases h : c = '\n'
    · subst h
      rw [linesOf_break]
      exact List.forall_mem_cons.mpr ⟨List.not_mem_nil, ih⟩
    · rw [linesOf_cons h]
      cases hl : linesOf cs with
      | nil => simpa using Ne.symm h
      | cons first rest =>
        rw [hl] at ih
        obtain ⟨inFirst, inRest⟩ := List.forall_mem_cons.mp ih
        exact List.forall_mem_cons.mpr ⟨by simpa [inFirst] using Ne.symm h, inRest⟩

/-- The text is made of its lines. -/
theorem hasLines_linesOf (text : String) : HasLines text (linesOf text.toList) := by
  unfold HasLines
  generalize text.toList = cs
  induction cs with
  | nil => exact .inl rfl
  | cons c cs ih =>
    by_cases h : c = '\n'
    · subst h
      simpa [linesOf_break] using ih
    · rw [linesOf_cons h]
      cases hl : linesOf cs with
      | nil =>
        have last : cs = [] := by
          by_contra filled
          exact linesOf_ne_nil filled hl
        subst last
        exact .inr rfl
      | cons first rest => simpa [hl] using ih

/-- Where the first text is empty or ends with a break, no line goes from it into the second. -/
theorem linesOf_append (ended : ∀ c ∈ xs.getLast?, c = '\n') (cs : List Char) :
    linesOf (xs ++ cs) = linesOf xs ++ linesOf cs := by
  induction xs with
  | nil => rfl
  | cons x xs ih =>
    cases xs with
    | nil =>
      obtain rfl := ended x rfl
      exact linesOf_break cs
    | cons y ys =>
      have later := ih ended
      by_cases h : x = '\n'
      · subst h
        rw [List.cons_append, linesOf_break, linesOf_break, later]
        rfl
      · obtain ⟨first, rest, hl⟩ := List.exists_cons_of_ne_nil (linesOf_ne_nil (List.cons_ne_nil y ys))
        rw [List.cons_append, linesOf_cons h, linesOf_cons h, later, hl]
        rfl

theorem length_linesOf (ended : ∀ c ∈ xs.getLast?, c = '\n') : (linesOf xs).length = xs.count '\n' := by
  induction xs with
  | nil => rfl
  | cons x xs ih =>
    cases xs with
    | nil =>
      obtain rfl := ended x rfl
      rfl
    | cons y ys =>
      have later := ih ended
      by_cases h : x = '\n'
      · subst h
        rw [linesOf_break, List.length_cons, later, List.count_cons_self]
      · obtain ⟨first, rest, hl⟩ := List.exists_cons_of_ne_nil (linesOf_ne_nil (List.cons_ne_nil y ys))
        rw [linesOf_cons h, List.count_cons_of_ne h, ← later, hl]
        rfl

end

end MacroDeck
