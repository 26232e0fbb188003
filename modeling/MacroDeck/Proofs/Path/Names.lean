import MacroDeck.Path
import Mathlib.Data.List.Basic

namespace MacroDeck.Path

/-- What may follow the last name of a path: slashes, and names of the directory itself behind slashes. -/
inductive Trailing : Bytes → Prop
  | nil : Trailing []
  | slash {rest : Bytes} : Trailing rest → Trailing (slash :: rest)
  | here {rest : Bytes} : Trailing rest → Trailing (Path.slash :: dot :: rest)

/-- A name other than the directory's own. -/
structure Proper (name : Bytes) : Prop where
  nonempty : name ≠ []
  single : slash ∉ name
  other : name ≠ here

/-- The last name of the path, once what trails is dropped. -/
structure EndsIn (p : Path) (name : Bytes) : Prop where
  proper : Proper name
  cut : ∃ before after, p.bytes = before ++ name ++ after ∧ (before = [] ∨ ∃ front, before = front ++ [slash]) ∧
    Trailing after

/-- The path has nothing but slashes and names of the directory itself. -/
def Blank (p : Path) : Prop :=
  Trailing p.bytes ∨ ∃ rest, p.bytes = dot :: rest ∧ Trailing rest

@[simp] theorem names_nil : names ⟨[]⟩ = [] :=
  rfl

theorem names_append_slash (front rest : Bytes) : names ⟨front ++ slash :: rest⟩ = names ⟨front⟩ ++ names ⟨rest⟩ := by
  rw [names, List.splitOn_append_cons_self, List.filter_append]
  rfl

theorem names_of_single {name : Bytes} (nonempty : name ≠ []) (single : slash ∉ name) : names ⟨name⟩ = [name] := by
  rw [names, List.splitOn_eq_singleton single]
  simp [nonempty]

section

variable {front after name : Bytes} {p : Path}

theorem Proper.names (h : Proper name) : Path.names ⟨name⟩ = [name] :=
  names_of_single h.nonempty h.single

/-- What trails adds no name but the directory's own. -/
theorem proper_names_trailing (front : Bytes) (h : Trailing after) :
    (names ⟨front ++ after⟩).filter (· != here) = (names ⟨front⟩).filter (· != here) := by
  induction h generalizing front with
  | nil => rw [List.append_nil]
  | @slash rest _ ih =>
    have none := ih []
    rw [List.nil_append, names_nil] at none
    rw [names_append_slash, List.filter_append, none]
    simp
  | @here rest _ ih =>
    have none := ih [dot]
    have own : (names ⟨[dot]⟩).filter (· != Path.here) = [] := by decide
    rw [own] at none
    rw [names_append_slash, List.filter_append, ← List.singleton_append, none]
    simp

theorem lastName?_append_trailing (front : Bytes) (h : Trailing after) :
    lastName? ⟨front ++ after⟩ = lastName? ⟨front⟩ := by
  rw [lastName?, proper_names_trailing front h]
  rfl

theorem lastName?_append_name (front : Bytes) (h : Proper name) : lastName? ⟨front ++ slash :: name⟩ = some name := by
  rw [lastName?, names_append_slash, h.names, List.filter_append]
  simp [h.other]

theorem lastName?_name (h : Proper name) : lastName? ⟨name⟩ = some name := by
  rw [lastName?, h.names]
  simp [h.other]

theorem EndsIn.lastName? (h : p.EndsIn name) : p.lastName? = some name := by
  obtain ⟨before, after, whole, starts, trailing⟩ := h.cut
  obtain ⟨bytes⟩ := p
  obtain rfl : bytes = _ := whole
  rw [lastName?_append_trailing _ trailing]
  rcases starts with rfl | ⟨front, rfl⟩
  · exact lastName?_name h.proper
  · rw [List.append_assoc]
    exact lastName?_append_name front h.proper

theorem Blank.lastName? (h : p.Blank) : p.lastName? = none := by
  obtain ⟨bytes⟩ := p
  rcases h with trailing | ⟨rest, eq, trailing⟩
  · exact lastName?_append_trailing [] trailing
  · obtain rfl : bytes = _ := eq
    exact lastName?_append_trailing [dot] trailing

end

/-- Byte by byte from the end, a path has a last name or nothing but what can trail. -/
theorem endsIn_or_blank (p : Path) : (∃ name, p.EndsIn name) ∨ p.Blank := by
  obtain ⟨bytes⟩ := p
  induction bytes with
  | nil => exact .inr (.inl .nil)
  | cons c rest ih =>
    by_cases isSlash : c = slash
    · subst isSlash
      rcases ih with ⟨name, proper, before, after, whole, starts, trailing⟩ | trailing | ⟨later, eq, trailing⟩
      · obtain rfl : rest = _ := whole
        refine .inl ⟨name, proper, slash :: before, after, rfl, .inr ?_, trailing⟩
        rcases starts with rfl | ⟨front, rfl⟩
        · exact ⟨[], rfl⟩
        · exact ⟨slash :: front, rfl⟩
      · exact .inr (.inl (.slash trailing))
      · obtain rfl : rest = _ := eq
        exact .inr (.inl (.here trailing))
    · rcases ih with ⟨name, proper, before, after, whole, starts, trailing⟩ | trailing | ⟨later, eq, trailing⟩
      · obtain rfl : rest = _ := whole
        rcases starts with rfl | ⟨front, rfl⟩
        · have single : slash ∉ c :: name := fun among =>
            (List.mem_cons.mp among).elim (fun eq => isSlash eq.symm) proper.single
          refine .inl ⟨c :: name, ⟨List.cons_ne_nil _ _, single, fun own => ?_⟩, [], after, rfl, .inl rfl, trailing⟩
          exact proper.nonempty (List.cons.inj own).2
        · exact .inl ⟨name, proper, c :: (front ++ [slash]), after, rfl, .inr ⟨c :: front, rfl⟩, trailing⟩
      · by_cases isDot : c = dot
        · exact .inr (.inr ⟨rest, by rw [isDot], trailing⟩)
        · have single : slash ∉ [c] := fun among => isSlash (List.mem_singleton.mp among).symm
          refine .inl ⟨[c], ⟨List.cons_ne_nil _ _, single, fun own => ?_⟩, [], rest, rfl, .inl rfl, trailing⟩
          exact isDot (List.cons.inj own).1
      · obtain rfl : rest = _ := eq
        have single : slash ∉ [c, dot] := by
          rw [List.mem_pair]
          exact fun among => among.elim (fun eq => isSlash eq.symm) (by decide)
        refine .inl ⟨[c, dot], ⟨List.cons_ne_nil _ _, single, fun own => ?_⟩, [], later, rfl, .inl rfl, trailing⟩
        exact List.cons_ne_nil _ _ (List.cons.inj own).2

/-- A path has one last name or none. -/
theorem existsUnique_endsIn_or_blank (p : Path) : (∃! name, p.EndsIn name) ∨ p.Blank ∧ ∀ name, ¬ p.EndsIn name := by
  rcases p.endsIn_or_blank with ⟨name, ends⟩ | blank
  · exact .inl ⟨name, ends, fun other h => Option.some.inj (h.lastName?.symm.trans ends.lastName?)⟩
  · refine .inr ⟨blank, fun name ends => ?_⟩
    have none := ends.lastName?.symm.trans blank.lastName?
    cases none

end MacroDeck.Path
