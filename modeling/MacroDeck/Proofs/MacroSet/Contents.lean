import MacroDeck.Proofs.KeyValues.Lookup
import MacroDeck.Proofs.MacroSet.Slots

namespace MacroDeck

def Slot.mapContents (f : String → String) (s : Slot) : Slot :=
  { s with contents := f s.contents }

theorem putSlot_map (f : String → String) (slot : Slot) (slots : List Slot) :
    putSlot (slot.mapContents f) (slots.map (Slot.mapContents f)) = (putSlot slot slots).map (Slot.mapContents f) := by
  induction slots with
  | nil => rfl
  | cons first rest ih =>
    have here : (first.mapContents f).index = first.index := rfl
    have given : (slot.mapContents f).index = slot.index := rfl
    rw [List.map_cons, putSlot, putSlot, ih, here, given]
    split
    next => rfl
    next => split <;> rfl

namespace MacroSet

def mapContents (f : String → String) (m : MacroSet) : MacroSet where
  slots := m.slots.map (Slot.mapContents f)
  ascending := List.pairwise_map.mpr m.ascending

/-- The slots of the set by their numbers and names. -/
def labels (m : MacroSet) : List (Nat × String) :=
  m.slots.map fun s => (s.index, s.name)

section

variable (f : String → String) (m : MacroSet)

@[simp] theorem slots_mapContents : (m.mapContents f).slots = m.slots.map (Slot.mapContents f) :=
  rfl

@[simp] theorem labels_mapContents : (m.mapContents f).labels = m.labels :=
  List.map_map

@[simp] theorem isEmpty_mapContents : (m.mapContents f).isEmpty = m.isEmpty :=
  List.isEmpty_map

theorem define_mapContents (slot : Slot) :
    (m.mapContents f).define (slot.mapContents f) = (m.define slot).mapContents f := by
  unfold define mapContents
  congr 1
  exact putSlot_map f slot m.slots

end

theorem addPairs_mapContents (f : String → String) (policy : KeyPolicy) (naming : Naming)
    (pairs : List (String × String)) (m : MacroSet) :
    (addPairs policy naming (pairs.map (Prod.map id f)) (m.mapContents f)).2 =
      (addPairs policy naming pairs m).2.map (mapContents f) := by
  induction pairs generalizing m with
  | nil => rfl
  | cons first rest ih =>
    obtain ⟨key, contents⟩ := first
    rw [List.map_cons, Prod.map_apply, id_eq]
    cases hk : slotOfKey key with
    | ok index =>
      have defined := define_mapContents f m ⟨index, naming.name index, contents⟩
      rw [addPairs_of_slot hk, addPairs_of_slot hk, ← ih, ← defined]
      rfl
    | error e =>
      cases policy with
      | strict =>
        rw [addPairs_strict_of_error hk, addPairs_strict_of_error hk]
        rfl
      | skip => rw [addPairs_skip_of_error hk, addPairs_skip_of_error hk, ih]

theorem ofKeyValues_mapValues (f : String → String) (policy : KeyPolicy) (naming : Naming) (m : KeyValues) :
    (ofKeyValues policy naming (m.mapValues f)).2 = (ofKeyValues policy naming m).2.map (mapContents f) :=
  addPairs_mapContents f policy naming m.pairs empty

end MacroSet

theorem KeyValues.hasMacroKey_mapValues (f : String → String) (m : KeyValues) :
    (m.mapValues f).hasMacroKey = m.hasMacroKey := by
  rw [hasMacroKey, hasMacroKey, keys_mapValues]

end MacroDeck
