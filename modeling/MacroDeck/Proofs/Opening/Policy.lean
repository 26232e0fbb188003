import MacroDeck.Proofs.Opening.MacroOutcome

namespace MacroDeck

/-- The pairs whose keys name a slot, in their order. -/
def KeyValues.withSlots (m : KeyValues) : KeyValues where
  pairs := m.pairs.filter fun pair => (slotOfKey pair.1).toBool
  distinct := m.distinct.sublist (List.filter_sublist.map Prod.fst)

theorem toBool_slotOfKey_iff {key : String} : (slotOfKey key).toBool = true ↔ ¬ Slotless key := by
  rw [slotless_iff_error]
  cases slotOfKey key <;> simp [Except.toBool]

theorem KeyValues.mem_keys_withSlots {m : KeyValues} {key : String} :
    key ∈ m.withSlots.keys ↔ key ∈ m.keys ∧ ¬ Slotless key := by
  simp only [keys, withSlots, List.mem_map, List.mem_filter, toBool_slotOfKey_iff]
  constructor
  · rintro ⟨pair, ⟨among, named⟩, rfl⟩
    exact ⟨⟨pair, among, rfl⟩, named⟩
  · rintro ⟨⟨pair, among, rfl⟩, named⟩
    exact ⟨pair, ⟨among, named⟩, rfl⟩

namespace MacroSet

theorem addPairs_skip_eq_strict (naming : Naming) (pairs : List (String × String)) (m : MacroSet) :
    (addPairs .skip naming pairs m).2 =
      (addPairs .strict naming (pairs.filter fun pair => (slotOfKey pair.1).toBool) m).2 := by
  induction pairs generalizing m with
  | nil => rfl
  | cons first rest ih =>
    obtain ⟨key, contents⟩ := first
    cases hk : slotOfKey key with
    | ok index =>
      rw [List.filter_cons_of_pos (by simp [hk, Except.toBool]), addPairs_of_slot hk, addPairs_of_slot hk, ih]
    | error e => rw [List.filter_cons_of_neg (by simp [hk, Except.toBool]), addPairs_skip_of_error hk, ih]

/-- Where every key names a slot, the events too are the same under both policies. -/
theorem addPairs_eq_strict_of_named (policy : KeyPolicy) (naming : Naming) {pairs : List (String × String)}
    (named : ∀ pair ∈ pairs, ∃ index, slotOfKey pair.1 = .ok index) (m : MacroSet) :
    addPairs policy naming pairs m = addPairs .strict naming pairs m := by
  induction pairs generalizing m with
  | nil => rfl
  | cons first rest ih =>
    obtain ⟨index, hk⟩ := named first List.mem_cons_self
    have later := ih (fun pair hp => named pair (List.mem_cons_of_mem _ hp))
    simp only [addPairs, hk, later]

variable {m : KeyValues}

theorem ofKeyValues_skip (naming : Naming) (m : KeyValues) :
    (ofKeyValues .skip naming m).2 = (ofKeyValues .strict naming m.withSlots).2 :=
  addPairs_skip_eq_strict naming m.pairs empty

theorem ofKeyValues_eq_strict_of_named (policy : KeyPolicy) (naming : Naming) (named : ∀ key ∈ m.keys, ¬ Slotless key) :
    ofKeyValues policy naming m = ofKeyValues .strict naming m := by
  apply addPairs_eq_strict_of_named
  intro pair hp
  obtain ⟨slot, names⟩ := not_slotless_iff.mp (named pair.1 (List.mem_map.mpr ⟨pair, hp, rfl⟩))
  exact ⟨slot, slotOfKey_eq_ok_iff.mpr names⟩

/-- The strict policy fails a map exactly when the other one leaves out a key of it. -/
theorem exists_strict_error_iff (naming : Naming) (m : KeyValues) :
    (∃ e, (ofKeyValues .strict naming m).2 = .error e) ↔ ∃ key ∈ m.keys, key ∉ m.withSlots.keys := by
  constructor
  · rintro ⟨e, failed⟩
    by_contra kept
    have named : ∀ key ∈ m.keys, ¬ Slotless key := fun key among slotless =>
      kept ⟨key, among, fun left => (KeyValues.mem_keys_withSlots.mp left).2 slotless⟩
    obtain ⟨set, built⟩ := exists_ofKeyValues_of_named .strict naming named
    rw [failed] at built
    cases built
  · rintro ⟨key, among, dropped⟩
    cases built : (ofKeyValues .strict naming m).2 with
    | error e => exact ⟨e, rfl⟩
    | ok set =>
      have named := named_of_ofKeyValues_strict built key among
      exact absurd (KeyValues.mem_keys_withSlots.mpr ⟨among, named⟩) dropped

end MacroSet

namespace Opener

/-- The opener with the policy that leaves out keys without a slot. -/
def skipping (o : Opener) : Opener :=
  { o with policy := .skip }

section

variable {o : Opener} {path : Path} {content : Except IoError Bytes}

theorem planMacros_skipping {call : HostCall} {set : MacroSet}
    (planned : (o.planMacros path content).result = .ok (call, set)) :
    o.skipping.planMacros path content = o.planMacros path content := by
  cases hp : o.policy with
  | skip =>
    have same : o.skipping = o := by rw [skipping, ← hp]
    rw [same]
  | strict =>
    cases parsed : o.readPairs path content with
    | error e => simp [planMacros, parsed] at planned
    | ok m =>
      obtain rfl := planMacros_call planned
      obtain ⟨-, built, -⟩ := (planMacros_eq_ok_iff parsed set).mp planned
      rw [hp] at built
      have same : MacroSet.ofKeyValues .skip o.naming m = MacroSet.ofKeyValues o.policy o.naming m := by
        rw [hp]
        exact MacroSet.ofKeyValues_eq_strict_of_named .skip o.naming (MacroSet.named_of_ofKeyValues_strict built)
      have parsed' : o.skipping.readPairs path content = .ok m := parsed
      have naming : o.skipping.naming = o.naming := rfl
      have policy : o.skipping.policy = .skip := rfl
      unfold planMacros
      rw [parsed, parsed', naming, policy]
      dsimp only
      rw [same]

/-- A file that asks for a call asks for the same one, with the same events, when keys without a slot are left out. -/
theorem plan_skipping {call : HostCall} {opened : Opened} (planned : (o.plan path content).result = .ok (call, opened)) :
    o.skipping.plan path content = o.plan path content := by
  unfold plan at planned ⊢
  cases hk : path.kind with
  | macros =>
    rw [hk] at planned
    obtain ⟨set, plannedMacros, -⟩ := Plan.map_result_eq_ok planned
    exact congrArg (Plan.map Opened.macros) (planMacros_skipping plannedMacros)
  | session => rfl
  | script => rfl

variable {σ : Type} {host : Host (StateM World) σ} {s : σ} {w : World}

/-- A macro file that loads loads in the same way when keys without a slot are left out: with the same set and events,
and with the host and the machine left the same. -/
theorem loadMacros_skipping {set : MacroSet} (loaded : (o.loadMacros path host s w).1.result = .ok set) :
    o.skipping.loadMacros path host s w = o.loadMacros path host s w := by
  cases planned : (o.planMacros path (w.disk.read path)).result with
  | error e =>
    rw [loadMacros_eq_file_error_iff.mpr planned] at loaded
    cases loaded
  | ok pair => rw [loadMacros_run, loadMacros_run, planMacros_skipping planned]

end

end Opener

end MacroDeck
