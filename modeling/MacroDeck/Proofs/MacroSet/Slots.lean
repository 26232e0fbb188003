import MacroDeck.Proofs.MacroSet.Define
import Mathlib.Data.Finset.Card

namespace MacroDeck.MacroSet

section

variable {m : MacroSet} {slot s t : Slot} {index : Nat}

theorem nodup_indices (m : MacroSet) : (m.slots.map Slot.index).Nodup :=
  List.pairwise_map.mpr (m.ascending.imp fun below => Nat.ne_of_lt below)

theorem eq_of_index_eq (hs : s ∈ m.slots) (ht : t ∈ m.slots) (same : s.index = t.index) : s = t :=
  List.inj_on_of_nodup_map m.nodup_indices hs ht same

theorem get?_eq_some_iff : m.get? index = some s ↔ s ∈ m.slots ∧ s.index = index := by
  constructor
  · intro found
    exact ⟨List.mem_of_find?_eq_some found, by simpa using List.find?_some found⟩
  · rintro ⟨hs, rfl⟩
    cases found : m.get? s.index with
    | none => exact absurd rfl (get?_eq_none_iff.mp found s hs)
    | some t =>
      have same : t.index = s.index := by simpa using List.find?_some found
      rw [eq_of_index_eq (List.mem_of_find?_eq_some found) hs same]

/-- A set is told by what each slot holds. -/
theorem ext_get? {m' : MacroSet} (same : ∀ index, m.get? index = m'.get? index) : m = m' := by
  have members (s : Slot) : s ∈ m.slots ↔ s ∈ m'.slots := by
    have here := @get?_eq_some_iff m s s.index
    have there := @get?_eq_some_iff m' s s.index
    rw [same, there] at here
    simpa using here.symm
  have perm : m.slots.Perm m'.slots :=
    (List.perm_ext_iff_of_nodup m.nodup_indices.of_map m'.nodup_indices.of_map).mpr members
  have slots : m.slots = m'.slots := by
    refine perm.eq_of_pairwise (fun a b _ _ below above => ?_) m.ascending m'.ascending
    omega
  obtain ⟨_, _⟩ := m
  obtain ⟨_, _⟩ := m'
  subst slots
  rfl

theorem get?_define (m : MacroSet) (slot : Slot) (index : Nat) :
    (m.define slot).get? index = if index = slot.index then some slot else m.get? index := by
  ext s
  rw [get?_eq_some_iff, mem_define_iff]
  split
  next same =>
    subst same
    constructor
    · rintro ⟨rfl | ⟨-, other⟩, eq⟩
      · rfl
      · exact absurd eq other
    · rintro ⟨⟩
      exact ⟨.inl rfl, rfl⟩
  next other =>
    rw [get?_eq_some_iff]
    constructor
    · rintro ⟨rfl | ⟨hs, -⟩, eq⟩
      · exact absurd eq.symm other
      · exact ⟨hs, eq⟩
    · rintro ⟨hs, eq⟩
      exact ⟨.inr ⟨hs, fun e => other (eq.symm.trans e)⟩, eq⟩

theorem isEmpty_eq_false_iff : m.isEmpty = false ↔ ∃ index, (m.get? index).isSome := by
  constructor
  · intro filled
    obtain ⟨s, hs⟩ := List.exists_mem_of_ne_nil m.slots (by simpa [isEmpty] using filled)
    exact ⟨s.index, by rw [get?_eq_some_iff.mpr ⟨hs, rfl⟩]; rfl⟩
  · rintro ⟨index, there⟩
    obtain ⟨s, found⟩ := Option.isSome_iff_exists.mp there
    simpa [isEmpty] using List.ne_nil_of_mem (get?_eq_some_iff.mp found).1

theorem size_eq_card (m : MacroSet) : m.size = (m.slots.map Slot.index).toFinset.card := by
  rw [List.toFinset_card_of_nodup m.nodup_indices, List.length_map]
  rfl

theorem length_putSlot {slot : Slot} {slots : List Slot} (ascending : slots.Pairwise (·.index < ·.index)) :
    (putSlot slot slots).length = slots.length + if slot.index ∈ slots.map Slot.index then 0 else 1 := by
  induction slots with
  | nil => rfl
  | cons first rest ih =>
    obtain ⟨above, ascending⟩ := List.pairwise_cons.mp ascending
    by_cases below : slot.index < first.index
    · have new : slot.index ∉ (first :: rest).map Slot.index := by
        rw [List.map_cons, List.mem_cons]
        rintro (same | there)
        · omega
        · obtain ⟨s, hs, eq⟩ := List.mem_map.mp there
          have := above s hs
          omega
      rw [putSlot, if_pos below, if_neg new]
      rfl
    · by_cases same : slot.index = first.index
      · rw [putSlot, if_neg below, if_pos same, if_pos (same ▸ List.mem_cons_self)]
        rfl
      · rw [putSlot, if_neg below, if_neg same, List.length_cons, ih ascending]
        simp only [List.map_cons, List.mem_cons, same, false_or, List.length_cons]
        omega

theorem mem_indices_iff_isSome : index ∈ m.slots.map Slot.index ↔ (m.get? index).isSome := by
  simp [Option.isSome_iff_exists, get?_eq_some_iff]

theorem size_define (m : MacroSet) (slot : Slot) :
    (m.define slot).size = m.size + if (m.get? slot.index).isSome then 0 else 1 := by
  rw [← if_congr mem_indices_iff_isSome rfl rfl]
  exact length_putSlot m.ascending

end

section

variable {policy : KeyPolicy} {naming : Naming} {pairs rest : List (String × String)} {m set : MacroSet}
  {key contents : String} {index : Nat} {e : KeyError}

theorem addPairs_of_slot (h : slotOfKey key = .ok index) :
    (addPairs policy naming ((key, contents) :: rest) m).2 =
      (addPairs policy naming rest (m.define ⟨index, naming.name index, contents⟩)).2 := by
  simp [addPairs, h]

theorem addPairs_strict_of_error (h : slotOfKey key = .error e) :
    (addPairs .strict naming ((key, contents) :: rest) m).2 = .error e := by
  simp [addPairs, h]

theorem addPairs_skip_of_error (h : slotOfKey key = .error e) :
    (addPairs .skip naming ((key, contents) :: rest) m).2 = (addPairs .skip naming rest m).2 := by
  simp [addPairs, h]

/-- A slot of the set holds what the last of the pairs that name it says. -/
theorem get?_of_addPairs (added : (addPairs policy naming pairs m).2 = .ok set) (index : Nat) :
    set.get? index =
      ((pairs.filter fun pair => slotOfKey pair.1 = .ok index).getLast?.map fun pair =>
        ⟨index, naming.name index, pair.2⟩).or (m.get? index) := by
  induction pairs generalizing m with
  | nil =>
    cases added
    rfl
  | cons first rest ih =>
    obtain ⟨key, contents⟩ := first
    cases hk : slotOfKey key with
    | ok i =>
      rw [addPairs_of_slot hk] at added
      rw [ih added, get?_define]
      by_cases same : index = i
      · subst same
        rw [if_pos rfl, List.filter_cons_of_pos (by simpa using hk), List.getLast?_cons]
        cases (rest.filter _).getLast? <;> rfl
      · have other : ¬ i = index := fun eq => same eq.symm
        rw [if_neg same, List.filter_cons_of_neg (by simpa [hk] using other)]
    | error e =>
      have skipped : (addPairs policy naming rest m).2 = .ok set := by
        cases policy with
        | strict =>
          rw [addPairs_strict_of_error hk] at added
          cases added
        | skip => rwa [addPairs_skip_of_error hk] at added
      rw [ih skipped, List.filter_cons_of_neg (by simp [hk])]

/-- Where every key names a slot, the policy has nothing to say. -/
theorem exists_addPairs_of_named (named : ∀ pair ∈ pairs, ∃ index, slotOfKey pair.1 = .ok index) (m : MacroSet) :
    ∃ set, (addPairs policy naming pairs m).2 = .ok set := by
  induction pairs generalizing m with
  | nil => exact ⟨m, rfl⟩
  | cons first rest ih =>
    obtain ⟨index, hk⟩ := named first List.mem_cons_self
    rw [addPairs_of_slot hk]
    exact ih (fun pair hp => named pair (List.mem_cons_of_mem _ hp)) _

theorem exists_addPairs_skip (naming : Naming) (pairs : List (String × String)) (m : MacroSet) :
    ∃ set, (addPairs .skip naming pairs m).2 = .ok set := by
  induction pairs generalizing m with
  | nil => exact ⟨m, rfl⟩
  | cons first rest ih =>
    obtain ⟨key, contents⟩ := first
    cases hk : slotOfKey key with
    | ok index =>
      rw [addPairs_of_slot hk]
      exact ih _
    | error e =>
      rw [addPairs_skip_of_error hk]
      exact ih m

/-- Under the strict policy the first key without a slot fails the whole map. -/
theorem addPairs_strict_of_first {before : List (String × String)}
    (named : ∀ pair ∈ before, ∃ index, slotOfKey pair.1 = .ok index) (h : slotOfKey key = .error e) (m : MacroSet) :
    (addPairs .strict naming (before ++ (key, contents) :: rest) m).2 = .error e := by
  induction before generalizing m with
  | nil => exact addPairs_strict_of_error h
  | cons first later ih =>
    obtain ⟨index, hk⟩ := named first List.mem_cons_self
    rw [List.cons_append, addPairs_of_slot hk]
    exact ih (fun pair hp => named pair (List.mem_cons_of_mem _ hp)) _

end

end MacroDeck.MacroSet
