import MacroDeck.Proofs.MacroSet.Slots
import MacroDeck.Proofs.Writes

namespace MacroDeck.MacroSet

theorem ofList_concat (defined : List Slot) (slot : Slot) :
    ofList (defined ++ [slot]) = (ofList defined).define slot :=
  List.foldl_append

theorem get?_ofList (defined : List Slot) (index : Nat) :
    (ofList defined).get? index = lastWrite? Slot.index defined index := by
  induction defined using List.reverseRecOn with
  | nil => rfl
  | append_singleton defined slot ih => rw [ofList_concat, get?_define, ih, lastWrite?_concat]

theorem mem_slots_iff {m : MacroSet} {slot : Slot} : slot ∈ m.slots ↔ m.get? slot.index = some slot := by
  simp [get?_eq_some_iff]

theorem size_ofList (defined : List Slot) : (ofList defined).size = (defined.map Slot.index).toFinset.card := by
  have indices : ((ofList defined).slots.map Slot.index).toFinset = (defined.map Slot.index).toFinset :=
    List.toFinset.ext fun index => by rw [mem_indices_iff_isSome, get?_ofList, isSome_lastWrite?_iff]
  rw [size_eq_card, indices]

theorem ofList_eq_iff {defined defined' : List Slot} :
    ofList defined = ofList defined' ↔
      ∀ index, lastWrite? Slot.index defined index = lastWrite? Slot.index defined' index := by
  simp only [← get?_ofList]
  constructor
  · intro same index
    rw [same]
  · exact ext_get?

theorem ofList_moved {defined : List Slot} {place : Equiv.Perm (Fin defined.length)}
    (keeps : KeepsTurns Slot.index defined place) : ofList (moved defined place) = ofList defined :=
  ofList_eq_iff.mpr keeps.lastWrite?_moved

/-- Definitions on the empty set leave one slot for each index defined, in ascending order, and in it what the last
definition of that index says. Moving definitions changes nothing as long as those of one index keep their turns. -/
theorem definitions_tell_set (defined : List Slot) :
    let set := ofList defined
    set.slots.Pairwise (·.index < ·.index) ∧
    (∀ slot, slot ∈ set.slots ↔ set.get? slot.index = some slot) ∧
    (∀ index slot, set.get? index = some slot → slot.index = index) ∧
    (∀ index, set.get? index = lastWrite? Slot.index defined index) ∧
    set.size = (defined.map Slot.index).toFinset.card ∧
    ∀ place : Equiv.Perm (Fin defined.length), KeepsTurns Slot.index defined place →
      ofList (moved defined place) = set := by
  refine ⟨(ofList defined).ascending, fun slot => mem_slots_iff, fun index slot found => ?_, get?_ofList defined,
    size_ofList defined, fun place keeps => ofList_moved keeps⟩
  exact (get?_eq_some_iff.mp found).2

/-- The two definitions of one slot keep their turns, while those of the first and the last slot there are change
sides. -/
theorem definitions_tell_set_of_rivals :
    let defined : List Slot := [⟨2, "a", "x"⟩, ⟨0, "b", "y"⟩, ⟨2, "c", "z"⟩, ⟨18446744073709551615, "d", ""⟩]
    let place : Equiv.Perm (Fin 4) := (Equiv.swap 1 3).trans (Equiv.swap 0 1)
    KeepsTurns Slot.index defined place ∧
      moved defined place =
        [⟨18446744073709551615, "d", ""⟩, ⟨2, "a", "x"⟩, ⟨2, "c", "z"⟩, ⟨0, "b", "y"⟩] ∧
      ofList (moved defined place) = ofList defined ∧ (ofList defined).get? 2 = some ⟨2, "c", "z"⟩ := by
  intro defined place
  have keeps : KeepsTurns Slot.index defined place := by decide
  obtain ⟨-, -, -, last, -, movable⟩ := definitions_tell_set defined
  exact ⟨keeps, by decide, movable place keeps, last 2⟩

end MacroDeck.MacroSet
