import MacroDeck.MacroSet

namespace MacroDeck

/-- A slot put among ascending ones takes the place of the one of its number and of no other. -/
theorem mem_putSlot_iff {slot s : Slot} {slots : List Slot} (ascending : slots.Pairwise (·.index < ·.index)) :
    s ∈ putSlot slot slots ↔ s = slot ∨ s ∈ slots ∧ s.index ≠ slot.index := by
  induction slots with
  | nil => simp [putSlot]
  | cons first rest ih =>
    obtain ⟨above, ascending⟩ := List.pairwise_cons.mp ascending
    unfold putSlot
    split
    next below =>
      have others : ∀ t ∈ first :: rest, t.index ≠ slot.index := by
        intro t ht
        rcases List.mem_cons.mp ht with rfl | ht
        · omega
        · have := above t ht
          omega
      rw [List.mem_cons]
      exact or_congr_right ⟨fun h => ⟨h, others s h⟩, And.left⟩
    next =>
      split
      next same =>
        have others : ∀ t ∈ rest, t.index ≠ slot.index := by
          intro t ht
          have := above t ht
          omega
        rw [List.mem_cons, List.mem_cons]
        refine or_congr_right ⟨fun h => ⟨.inr h, others s h⟩, ?_⟩
        rintro ⟨rfl | h, ne⟩
        · exact absurd same.symm ne
        · exact h
      next notBelow differs =>
        rw [List.mem_cons, ih ascending, List.mem_cons]
        constructor
        · rintro (rfl | rfl | ⟨h, ne⟩)
          · exact .inr ⟨.inl rfl, fun e => differs e.symm⟩
          · exact .inl rfl
          · exact .inr ⟨.inr h, ne⟩
        · rintro (rfl | ⟨rfl | h, ne⟩)
          · exact .inr (.inl rfl)
          · exact .inl rfl
          · exact .inr (.inr ⟨h, ne⟩)

namespace MacroSet

theorem mem_define_iff {m : MacroSet} {slot s : Slot} :
    s ∈ (m.define slot).slots ↔ s = slot ∨ s ∈ m.slots ∧ s.index ≠ slot.index :=
  mem_putSlot_iff m.ascending

theorem get?_eq_none_iff {m : MacroSet} {index : Nat} : m.get? index = none ↔ ∀ s ∈ m.slots, s.index ≠ index := by
  simp [get?]

section

variable {α : Type} {entries : List α} {pair : α → String × String} {index : α → Nat}

/-- Pairs whose keys name new slots, each one of its own, add these slots and no event. -/
theorem addPairs_distinct (policy : KeyPolicy) (naming : Naming)
    (named : ∀ e ∈ entries, slotOfKey (pair e).1 = .ok (index e))
    (distinct : (entries.map index).Nodup) {m : MacroSet} (fresh : ∀ e ∈ entries, m.get? (index e) = none) :
    ∃ set, addPairs policy naming (entries.map pair) m = ([], .ok set) ∧
      ∀ s, s ∈ set.slots ↔
        s ∈ m.slots ∨ ∃ e ∈ entries, s = ⟨index e, naming.name (index e), (pair e).2⟩ := by
  induction entries generalizing m with
  | nil => exact ⟨m, rfl, by simp⟩
  | cons e es ih =>
    obtain ⟨notLater, distinct⟩ := List.nodup_cons.mp distinct
    have new := get?_eq_none_iff.mp (fresh e List.mem_cons_self)
    have later : ∀ e' ∈ es, (m.define ⟨index e, naming.name (index e), (pair e).2⟩).get? (index e') = none := by
      intro e' he
      refine get?_eq_none_iff.mpr fun s hs => ?_
      rcases mem_define_iff.mp hs with rfl | ⟨hs, -⟩
      · exact fun same => notLater (List.mem_map.mpr ⟨e', he, same.symm⟩)
      · exact get?_eq_none_iff.mp (fresh e' (List.mem_cons_of_mem _ he)) s hs
    obtain ⟨set, added, members⟩ := ih (fun e' he => named e' (List.mem_cons_of_mem _ he)) distinct later
    refine ⟨set, ?_, fun s => ?_⟩
    · have first := named e List.mem_cons_self
      rw [List.map_cons, addPairs]
      simp only [first, fresh e List.mem_cons_self, added]
      rfl
    · rw [members, mem_define_iff]
      simp only [List.mem_cons, exists_eq_or_imp]
      constructor
      · rintro ((rfl | ⟨hs, -⟩) | later)
        · exact .inr (.inl rfl)
        · exact .inl hs
        · exact .inr (.inr later)
      · rintro (hs | rfl | later)
        · exact .inl (.inr ⟨hs, new s hs⟩)
        · exact .inl (.inl rfl)
        · exact .inr later

end

end MacroSet

end MacroDeck
