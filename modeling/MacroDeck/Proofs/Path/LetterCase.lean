import MacroDeck.Proofs.Path.Names
import Mathlib.Data.List.Forall2

namespace MacroDeck

/-- The same byte, or the two forms of one ASCII letter. -/
inductive SameLetter : UInt8 → UInt8 → Prop
  | same (b : UInt8) : SameLetter b b
  | lowered {b : UInt8} : 0x41 ≤ b → b ≤ 0x5A → SameLetter b (b + 0x20)
  | raised {b : UInt8} : 0x41 ≤ b → b ≤ 0x5A → SameLetter (b + 0x20) b

/-- Equal but for the case of ASCII letters. -/
def SameUpToCase : Bytes → Bytes → Prop :=
  List.Forall₂ SameLetter

theorem lowerAscii_of_upper {b : UInt8} (low : 0x41 ≤ b) (high : b ≤ 0x5A) : lowerAscii b = b + 0x20 :=
  if_pos ⟨low, high⟩

theorem lowerAscii_of_not_upper {b : UInt8} (h : ¬ (0x41 ≤ b ∧ b ≤ 0x5A)) : lowerAscii b = b :=
  if_neg h

theorem add_not_upper {b : UInt8} (low : 0x41 ≤ b) (high : b ≤ 0x5A) : ¬ (0x41 ≤ b + 0x20 ∧ b + 0x20 ≤ 0x5A) := by
  rw [UInt8.le_iff_toNat_le] at low high ⊢
  rw [UInt8.le_iff_toNat_le, UInt8.toNat_add]
  simp only [UInt8.reduceToNat] at low high ⊢
  omega

@[simp] theorem lowerAscii_idem (b : UInt8) : lowerAscii (lowerAscii b) = lowerAscii b := by
  by_cases upper : 0x41 ≤ b ∧ b ≤ 0x5A
  · rw [lowerAscii_of_upper upper.1 upper.2, lowerAscii_of_not_upper (add_not_upper upper.1 upper.2)]
  · rw [lowerAscii_of_not_upper upper, lowerAscii_of_not_upper upper]

theorem sameLetter_iff {a b : UInt8} : SameLetter a b ↔ lowerAscii a = lowerAscii b := by
  constructor
  · rintro (_ | ⟨low, high⟩ | ⟨low, high⟩)
    · rfl
    · rw [← lowerAscii_of_upper low high, lowerAscii_idem]
    · rw [← lowerAscii_of_upper low high, lowerAscii_idem]
  · intro same
    by_cases upper : 0x41 ≤ a ∧ a ≤ 0x5A
    · by_cases upper' : 0x41 ≤ b ∧ b ≤ 0x5A
      · rw [lowerAscii_of_upper upper.1 upper.2, lowerAscii_of_upper upper'.1 upper'.2] at same
        obtain rfl := (UInt8.add_left_inj 0x20).mp same
        exact .same a
      · rw [lowerAscii_of_upper upper.1 upper.2, lowerAscii_of_not_upper upper'] at same
        subst same
        exact .lowered upper.1 upper.2
    · by_cases upper' : 0x41 ≤ b ∧ b ≤ 0x5A
      · rw [lowerAscii_of_not_upper upper, lowerAscii_of_upper upper'.1 upper'.2] at same
        subst same
        exact .raised upper'.1 upper'.2
      · rw [lowerAscii_of_not_upper upper, lowerAscii_of_not_upper upper'] at same
        subst same
        exact .same a

theorem sameUpToCase_iff {xs ys : Bytes} : SameUpToCase xs ys ↔ xs.map lowerAscii = ys.map lowerAscii := by
  have letters : SameLetter = fun a b => lowerAscii a = lowerAscii b := funext₂ fun _ _ => propext sameLetter_iff
  rw [SameUpToCase, letters, ← List.forall₂_eq_eq_eq, List.forall₂_map_left_iff, List.forall₂_map_right_iff]

/-- No letter becomes a mark that stands before all letters. -/
theorem lowerAscii_eq_iff {b mark : UInt8} (h : mark < 0x41) : lowerAscii b = mark ↔ b = mark := by
  by_cases upper : 0x41 ≤ b ∧ b ≤ 0x5A
  · rw [lowerAscii_of_upper upper.1 upper.2]
    obtain ⟨low, high⟩ := upper
    rw [UInt8.le_iff_toNat_le] at low high
    rw [UInt8.lt_iff_toNat_lt] at h
    rw [← UInt8.toNat_inj, ← UInt8.toNat_inj, UInt8.toNat_add]
    simp only [UInt8.reduceToNat] at low high h ⊢
    omega
  · rw [lowerAscii_of_not_upper upper]

namespace Path

/-- The path with its ASCII letters in lower case. -/
def lower (p : Path) : Path :=
  ⟨p.bytes.map lowerAscii⟩

section

variable {name after : Bytes} {p : Path}

theorem lowerAscii_slash : lowerAscii slash = slash := by
  decide

theorem lowerAscii_dot : lowerAscii dot = dot := by
  decide

theorem slash_mem_lower : slash ∈ name.map lowerAscii ↔ slash ∈ name := by
  simp only [List.mem_map, lowerAscii_eq_iff (show slash < 0x41 by decide), exists_eq_right]

theorem lower_eq_here : name.map lowerAscii = here ↔ name = here := by
  cases name with
  | nil => decide
  | cons b rest => simp [here, lowerAscii_eq_iff (show dot < 0x41 by decide)]

theorem lower_eq_above : name.map lowerAscii = above ↔ name = above := by
  cases name with
  | nil => decide
  | cons b rest =>
    cases rest with
    | nil => simp [above]
    | cons c rest => simp [above, lowerAscii_eq_iff (show dot < 0x41 by decide)]

theorem Trailing.lower (h : Trailing after) : Trailing (after.map lowerAscii) := by
  induction h with
  | nil => exact .nil
  | slash _ ih =>
    rw [List.map_cons, lowerAscii_slash]
    exact .slash ih
  | here _ ih =>
    rw [List.map_cons, List.map_cons, lowerAscii_slash, lowerAscii_dot]
    exact .here ih

theorem Proper.lower (h : Proper name) : Proper (name.map lowerAscii) where
  nonempty := fun empty => h.nonempty (List.map_eq_nil_iff.mp empty)
  single := fun among => h.single (slash_mem_lower.mp among)
  other := fun own => h.other (lower_eq_here.mp own)

theorem EndsIn.lower (h : p.EndsIn name) : p.lower.EndsIn (name.map lowerAscii) := by
  obtain ⟨before, after, whole, starts, trailing⟩ := h.cut
  refine ⟨h.proper.lower, before.map lowerAscii, after.map lowerAscii, ?_, ?_, trailing.lower⟩
  · rw [Path.lower, whole, List.map_append, List.map_append]
  · rcases starts with rfl | ⟨front, rfl⟩
    · exact .inl rfl
    · refine .inr ⟨front.map lowerAscii, ?_⟩
      rw [List.map_append, List.map_singleton, lowerAscii_slash]

theorem Blank.lower (h : p.Blank) : p.lower.Blank := by
  rcases h with trailing | ⟨rest, eq, trailing⟩
  · exact .inl trailing.lower
  · refine .inr ⟨rest.map lowerAscii, ?_, trailing.lower⟩
    rw [Path.lower, eq, List.map_cons, lowerAscii_dot]

end

theorem lastName?_lower (p : Path) : p.lower.lastName? = p.lastName?.map (List.map lowerAscii) := by
  rcases p.endsIn_or_blank with ⟨name, ends⟩ | blank
  · rw [ends.lastName?, ends.lower.lastName?, Option.map_some]
  · rw [blank.lastName?, blank.lower.lastName?, Option.map_none]

theorem extension?_lower (name : Bytes) :
    extension? (name.map lowerAscii) = (extension? name).map (List.map lowerAscii) := by
  have dots : ((· != dot) ∘ lowerAscii : UInt8 → Bool) = (· != dot) := by
    funext b
    simp [bne, beq_eq_decide, lowerAscii_eq_iff (show dot < 0x41 by decide)]
  unfold extension?
  simp only [lower_eq_above]
  by_cases isAbove : name = above
  · rw [if_pos isAbove, if_pos isAbove, Option.map_none]
  · rw [if_neg isAbove, if_neg isAbove]
    simp only [← List.map_reverse, List.takeWhile_map, List.dropWhile_map, dots, ← List.map_tail, List.isEmpty_map]
    split
    · rfl
    · rfl

theorem ofExtension_lower (ext : Bytes) : FileKind.ofExtension (ext.map lowerAscii) = .ofExtension ext := by
  have idem : lowerAscii ∘ lowerAscii = lowerAscii := funext lowerAscii_idem
  rw [FileKind.ofExtension, FileKind.ofExtension, List.map_map, idem]

theorem kind_lower (p : Path) : p.lower.kind = p.kind := by
  rw [kind, kind, lastName?_lower]
  cases p.lastName? with
  | none => rfl
  | some name =>
    rw [Option.map_some, Option.bind_some, Option.bind_some, extension?_lower]
    cases extension? name with
    | none => rfl
    | some ext => exact ofExtension_lower ext

/-- The kind does not depend on the case of letters. -/
theorem kind_of_sameUpToCase {p q : Path} (h : SameUpToCase p.bytes q.bytes) : q.kind = p.kind := by
  have same : q.lower = p.lower := congrArg Path.mk (sameUpToCase_iff.mp h).symm
  rw [← kind_lower q, same, kind_lower]

end Path

end MacroDeck
