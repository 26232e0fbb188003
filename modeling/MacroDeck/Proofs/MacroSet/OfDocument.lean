import MacroDeck.Proofs.Document.History
import MacroDeck.Proofs.MacroSet.Slots

namespace MacroDeck.MacroSet

section

variable {policy : KeyPolicy} {naming : Naming} {m : KeyValues} {set : MacroSet} {index : Nat}

theorem get?_of_ofKeyValues (built : (ofKeyValues policy naming m).2 = .ok set) (index : Nat) :
    set.get? index = (m.pairs.filter fun pair => slotOfKey pair.1 = .ok index).getLast?.map fun pair =>
      ⟨index, naming.name index, pair.2⟩ := by
  have fresh : empty.get? index = none := rfl
  rw [get?_of_addPairs built, fresh, Option.or_none]

theorem isSome_get?_iff (built : (ofKeyValues policy naming m).2 = .ok set) :
    (set.get? index).isSome ↔ ∃ key ∈ m.keys, slotOfKey key = .ok index := by
  rw [get?_of_ofKeyValues built, Option.isSome_map, Option.isSome_iff_ne_none, Ne, List.getLast?_eq_none_iff]
  constructor
  · intro filled
    obtain ⟨pair, hp⟩ := List.exists_mem_of_ne_nil _ filled
    obtain ⟨among, names⟩ := List.mem_filter.mp hp
    exact ⟨pair.1, List.mem_map.mpr ⟨pair, among, rfl⟩, by simpa using names⟩
  · rintro ⟨key, hk, names⟩
    obtain ⟨pair, among, rfl⟩ := List.mem_map.mp hk
    exact List.ne_nil_of_mem (List.mem_filter.mpr ⟨among, by simpa using names⟩)

/-- Among the keys that name a slot the last in the map gives its contents. -/
theorem exists_last_key (built : (ofKeyValues policy naming m).2 = .ok set) {before : String → String → Prop}
    (ordered : m.keys.Pairwise before) {slot : Slot} (found : set.get? index = some slot) :
    ∃ key ∈ m.keys, slotOfKey key = .ok index ∧
      (∀ other ∈ m.keys, slotOfKey other = .ok index → other ≠ key → before other key) ∧
      slot = ⟨index, naming.name index, slot.contents⟩ ∧ m.get? key = some slot.contents := by
  have named := get?_of_ofKeyValues built index
  rw [found] at named
  obtain ⟨⟨key, contents⟩, last, rfl⟩ := Option.map_eq_some_iff.mp named.symm
  obtain ⟨earlier, split⟩ := List.getLast?_eq_some_iff.mp last
  obtain ⟨among, names⟩ := List.mem_filter.mp (List.mem_of_getLast? last)
  refine ⟨key, List.mem_map.mpr ⟨_, among, rfl⟩, by simpa using names, fun other ho hn ne => ?_, rfl,
    KeyValues.mem_pairs_iff.mp among⟩
  obtain ⟨pair, hp, rfl⟩ := List.mem_map.mp ho
  have inOrder : (earlier ++ [(key, contents)]).Pairwise fun pair later => before pair.1 later.1 := by
    rw [← split]
    exact (List.pairwise_map.mp ordered).filter _
  have listed : pair ∈ earlier ++ [(key, contents)] := by
    rw [← split]
    exact List.mem_filter.mpr ⟨hp, by simpa using hn⟩
  rcases List.mem_append.mp listed with first | same
  · exact (List.pairwise_append.mp inOrder).2.2 pair first _ (List.mem_singleton_self _)
  · exact absurd (congrArg Prod.fst (List.mem_singleton.mp same)) ne

end

/-- The slots of a document are those that its keys name, in ascending order. A slot holds the value of the last line
of a key; of the keys that name the slot it is the one whose first line comes last. -/
theorem slots_of_readText {g : Grammar} {text : String} {m : KeyValues} {policy : KeyPolicy} {naming : Naming}
    {set : MacroSet} (read : g.readText text = .ok m) (built : (ofKeyValues policy naming m).2 = .ok set) :
    let lines := text.toList.splitOn '\n'
    (∀ index, ((set.get? index).isSome ↔ ∃ key ∈ m.keys, slotOfKey key = .ok index) ∧
      ∀ slot, set.get? index = some slot → slot.index = index ∧ slot.name = naming.name index ∧
        ∃ key ∈ m.keys, slotOfKey key = .ok index ∧
          (∀ other ∈ m.keys, slotOfKey other = .ok index → other ≠ key →
            g.firstLine lines other < g.firstLine lines key) ∧
          g.LastGives lines key slot.contents) ∧
    (∀ slot, slot ∈ set.slots ↔ set.get? slot.index = some slot) ∧
    set.slots.Pairwise (·.index < ·.index) ∧
    set.size = (m.keys.filterMap fun key => (slotOfKey key).toOption).toFinset.card := by
  intro lines
  have history : g.History lines m := Grammar.history_of_readText read
  refine ⟨fun index => ⟨isSome_get?_iff built, fun slot found => ?_⟩, fun slot => ?_, set.ascending, ?_⟩
  · obtain ⟨key, among, names, latest, eq, value⟩ := exists_last_key built history.ordered found
    refine ⟨congrArg Slot.index eq, congrArg Slot.name eq, key, among, names, latest, ?_⟩
    exact (history.last key slot.contents).mp value
  · simp [get?_eq_some_iff]
  · rw [size_eq_card]
    congr 1
    ext index
    have there : index ∈ set.slots.map Slot.index ↔ (set.get? index).isSome := by
      simp [Option.isSome_iff_exists, get?_eq_some_iff]
    have named (key : String) : (slotOfKey key).toOption = some index ↔ slotOfKey key = .ok index := by
      cases slotOfKey key <;> simp [Except.toOption]
    rw [List.mem_toFinset, List.mem_toFinset, there, isSome_get?_iff built, List.mem_filterMap]
    simp only [named]

/-- The last line is of a key that came first, so the line before it wins. -/
theorem slots_of_readText_with_rivals :
    let g : Grammar := {}
    let text := "f1 = a\nm0 = b\n# f1\nF1 = c\nf1 = d"
    let m := KeyValues.ofList [("f1", "d"), ("m0", "b"), ("F1", "c")]
    let set := ofList [⟨1, "Macro 1", "c"⟩]
    g.readText text = .ok m ∧ (ofKeyValues .strict {} m).2 = .ok set ∧
      ∃ key ∈ m.keys, slotOfKey key = .ok 1 ∧ g.LastGives (text.toList.splitOn '\n') key "c" := by
  intro g text m set
  have read : g.readText text = .ok m := by decide
  have built : (ofKeyValues .strict {} m).2 = .ok set := by decide
  obtain ⟨slots, -⟩ := slots_of_readText read built
  obtain ⟨-, -, key, among, names, -, last⟩ := (slots 1).2 ⟨1, "Macro 1", "c"⟩ rfl
  exact ⟨read, built, key, among, names, last⟩

end MacroDeck.MacroSet
