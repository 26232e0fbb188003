import MacroDeck.Proofs.Text.Delimited
import MacroDeck.Text
import Mathlib.Data.List.DropRight

namespace MacroDeck

/-- No blank at either end. -/
structure Trimmed (cs : List Char) : Prop where
  head : ∀ c ∈ cs.head?, isBlank c = false
  last : ∀ c ∈ cs.getLast?, isBlank c = false

theorem trimmed_nil : Trimmed [] :=
  ⟨by simp, by simp⟩

/-- Two parts make a trimmed text when the first begins and the second ends without a blank. -/
theorem trimmed_append {xs ys : List Char} (nx : xs ≠ []) (ny : ys ≠ []) (hx : ∀ c ∈ xs.head?, isBlank c = false)
    (hy : ∀ c ∈ ys.getLast?, isBlank c = false) : Trimmed (xs ++ ys) := by
  constructor
  · rwa [List.head?_append_of_ne_nil _ nx]
  · rwa [List.getLast?_append_of_ne_nil _ ny]

theorem trimmed_quoted (cs : List Char) : Trimmed ('"' :: cs ++ ['"']) := by
  refine trimmed_append (List.cons_ne_nil _ _) (List.cons_ne_nil _ _) ?_ ?_
  · intro c hc
    cases hc
    rfl
  · intro c hc
    cases hc
    rfl

theorem Trimmed.blank_before {xs ys : List Char} (h : Trimmed (xs ++ ys)) (hx : ∀ c ∈ xs, isBlank c) : xs = [] := by
  cases xs with
  | nil => rfl
  | cons c cs =>
    have blank := hx c List.mem_cons_self
    have notBlank := h.head c rfl
    simp [blank] at notBlank

theorem Trimmed.blank_after {xs ys : List Char} (h : Trimmed (xs ++ ys)) (hy : ∀ c ∈ ys, isBlank c) : ys = [] := by
  cases hl : ys.getLast? with
  | none => exact List.getLast?_eq_none_iff.mp hl
  | some c =>
    have blank := hy c (List.mem_of_getLast? hl)
    have notBlank := h.last c (by simp [List.getLast?_append, hl])
    simp [blank] at notBlank

theorem trimStart_eq_append (cs : List Char) : ∃ w, (∀ c ∈ w, isBlank c) ∧ cs = w ++ trimStart cs :=
  ⟨cs.takeWhile isBlank, fun _ hc => List.mem_takeWhile_imp hc, List.takeWhile_append_dropWhile.symm⟩

theorem trimEnd_eq_append (cs : List Char) : ∃ w, (∀ c ∈ w, isBlank c) ∧ cs = trimEnd cs ++ w :=
  ⟨cs.rtakeWhile isBlank, fun _ hc => List.mem_rtakeWhile_imp hc, List.rdropWhile_append_rtakeWhile.symm⟩

theorem head_trimStart {cs : List Char} {c : Char} (h : c ∈ (trimStart cs).head?) : isBlank c = false := by
  have hd := List.head?_dropWhile_not isBlank cs
  rw [show (cs.dropWhile isBlank).head? = some c from h] at hd
  exact hd

theorem last_trimEnd {cs : List Char} {c : Char} (h : c ∈ (trimEnd cs).getLast?) : isBlank c = false := by
  rw [trimEnd, List.getLast?_reverse] at h
  exact head_trimStart h

theorem trimmed_trim (cs : List Char) : Trimmed (trim cs) where
  head c hc := by
    obtain ⟨w, -, hw⟩ := trimEnd_eq_append (trimStart cs)
    have start : (trimStart cs).head? = some c := by
      rw [hw, List.head?_append, show (trimEnd (trimStart cs)).head? = some c from hc]
      rfl
    exact head_trimStart start
  last _ hc := last_trimEnd hc

theorem exists_blanks_trim (cs : List Char) :
    ∃ w w', (∀ c ∈ w, isBlank c) ∧ (∀ c ∈ w', isBlank c) ∧ cs = w ++ trim cs ++ w' := by
  obtain ⟨w, hw, start⟩ := trimStart_eq_append cs
  obtain ⟨w', hw', finish⟩ := trimEnd_eq_append (trimStart cs)
  refine ⟨w, w', hw, hw', ?_⟩
  rw [List.append_assoc, trim, ← finish, ← start]

theorem trimStart_append {w rest : List Char} (hw : ∀ c ∈ w, isBlank c) (h : ∀ c ∈ rest.head?, isBlank c = false) :
    trimStart (w ++ rest) = rest :=
  dropWhile_run hw h

theorem trimEnd_append {rest w : List Char} (hw : ∀ c ∈ w, isBlank c) (h : ∀ c ∈ rest.getLast?, isBlank c = false) :
    trimEnd (rest ++ w) = rest := by
  rw [trimEnd, List.reverse_append, ← trimStart, trimStart_append (by simpa using hw) (by simpa using h),
    List.reverse_reverse]

/-- Whatever stands trimmed between blanks is what trimming leaves. -/
theorem trim_between {w u w' : List Char} (hw : ∀ c ∈ w, isBlank c) (hu : Trimmed u) (hw' : ∀ c ∈ w', isBlank c) :
    trim (w ++ u ++ w') = u := by
  cases u with
  | nil =>
    have blank : trimStart (w ++ [] ++ w') = [] :=
      List.dropWhile_eq_nil_iff.mpr (by simpa [or_imp, forall_and] using ⟨hw, hw'⟩)
    rw [trim, blank]
    rfl
  | cons c cs =>
    have head : ∀ d ∈ (c :: cs ++ w').head?, isBlank d = false := hu.head
    rw [trim, List.append_assoc, trimStart_append hw head, trimEnd_append hw' hu.last]

theorem Trimmed.trim_eq {u : List Char} (h : Trimmed u) : trim u = u := by
  simpa using trim_between (List.forall_mem_nil _) h (List.forall_mem_nil _)

theorem trimmed_iff {cs : List Char} : Trimmed cs ↔ trim cs = cs :=
  ⟨Trimmed.trim_eq, fun h => h ▸ trimmed_trim cs⟩

theorem trim_subset (cs : List Char) : trim cs ⊆ cs := by
  obtain ⟨w, w', -, -, h⟩ := exists_blanks_trim cs
  intro c hc
  rw [h]
  simp [hc]

theorem trim_eq_nil_iff {cs : List Char} : trim cs = [] ↔ ∀ c ∈ cs, isBlank c := by
  constructor
  · intro h
    obtain ⟨w, w', hw, hw', he⟩ := exists_blanks_trim cs
    rw [h, List.append_nil] at he
    intro c hc
    rw [he] at hc
    rcases List.mem_append.mp hc with hc | hc
    · exact hw c hc
    · exact hw' c hc
  · intro h
    simpa using trim_between h trimmed_nil (List.forall_mem_nil _)

end MacroDeck
