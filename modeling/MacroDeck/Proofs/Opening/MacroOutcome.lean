import MacroDeck.Proofs.Host.InWorld
import MacroDeck.Proofs.MacroKey.Slots
import MacroDeck.Proofs.MacroSet.OfDocument
import MacroDeck.Proofs.Opening.Plan

namespace MacroDeck

/-- Some key of the map ends in a number within the range. -/
def KeyValues.Fitting (m : KeyValues) : Prop :=
  ∃ key ∈ m.keys, ∃ stem number, Numbered key stem number ∧ number < numberLimit

/-- Under the strict policy every key of the map names a slot, otherwise some key does. -/
def KeyValues.Slotted (m : KeyValues) : KeyPolicy → Prop
  | .strict => ∀ key ∈ m.keys, ¬ Slotless key
  | .skip => ∃ key ∈ m.keys, ∃ slot, NamesSlot key slot

section

variable {m : KeyValues} {key : String}

theorem KeyValues.hasMacroKey_iff : m.hasMacroKey = true ↔ m.Fitting := by
  have decodes (key : String) : (MacroKey.decode key).toBool = true ↔
      ∃ stem number, Numbered key stem number ∧ number < numberLimit := by
    constructor
    · intro h
      cases hd : MacroKey.decode key with
      | error e => simp [hd, Except.toBool] at h
      | ok k => exact ⟨k.stem, k.number, decode_eq_ok_iff.mp hd⟩
    · rintro ⟨stem, number, numbered, fits⟩
      rw [decode_of_numbered numbered, if_pos fits]
      rfl
  rw [hasMacroKey, List.any_eq_true]
  exact exists_congr fun key => and_congr_right fun _ => decodes key

/-- A key whose number fits has no slot only if that number is the last one and counts from zero. -/
theorem names_no_slot_iff : (¬ ∃ slot, NamesSlot key slot) ↔
    ∀ stem number, Numbered key stem number → number < numberLimit →
      number = numberLimit - 1 ∧ stem ≠ "f" ∧ stem ≠ "F" := by
  constructor
  · intro noSlot stem number numbered fits
    have outside : ¬ countedSlot stem number < numberLimit := fun inside =>
      noSlot ⟨_, stem, number, numbered, rfl, inside⟩
    by_cases function : stem = "f" ∨ stem = "F"
    · rw [countedSlot_of_function function] at outside
      exact absurd fits outside
    · rw [countedSlot_of_other function] at outside
      exact ⟨by omega, not_or.mp function⟩
  · rintro last ⟨slot, stem, number, numbered, rfl, inside⟩
    have bound := le_countedSlot stem number
    obtain ⟨eq, other⟩ := last stem number numbered (by omega)
    rw [countedSlot_of_other (not_or.mpr other)] at inside
    omega

theorem exists_first_slotless (h : ∃ key ∈ m.keys, Slotless key) :
    ∃ before key after, m.keys = before ++ key :: after ∧ (∀ k ∈ before, ¬ Slotless k) ∧ Slotless key := by
  obtain ⟨key, among, slotless⟩ := h
  exact (none_or_first Slotless m.keys).resolve_left fun named => named key among slotless

namespace MacroSet

variable {policy : KeyPolicy} {naming : Naming} {set : MacroSet}

theorem isEmpty_eq_false_of_ofKeyValues (built : (ofKeyValues policy naming m).2 = .ok set) :
    set.isEmpty = false ↔ ∃ key ∈ m.keys, ∃ slot, NamesSlot key slot := by
  simp only [isEmpty_eq_false_iff, isSome_get?_iff built, slotOfKey_eq_ok_iff]
  constructor
  · rintro ⟨slot, key, among, names⟩
    exact ⟨key, among, slot, names⟩
  · rintro ⟨key, among, slot, names⟩
    exact ⟨slot, key, among, names⟩

theorem mem_indices_iff (built : (ofKeyValues policy naming m).2 = .ok set) (index : Nat) :
    (∃ slot ∈ set.slots, slot.index = index) ↔ ∃ key ∈ m.keys, NamesSlot key index := by
  simp only [← slotOfKey_eq_ok_iff]
  rw [← isSome_get?_iff built, Option.isSome_iff_exists]
  simp only [get?_eq_some_iff]

theorem exists_ofKeyValues_of_named (policy : KeyPolicy) (naming : Naming) (named : ∀ key ∈ m.keys, ¬ Slotless key) :
    ∃ set, (ofKeyValues policy naming m).2 = .ok set := by
  apply exists_addPairs_of_named
  intro pair hp
  obtain ⟨slot, names⟩ := not_slotless_iff.mp (named pair.1 (List.mem_map.mpr ⟨pair, hp, rfl⟩))
  exact ⟨slot, slotOfKey_eq_ok_iff.mpr names⟩

/-- Under the strict policy the first key without a slot fails the whole map, by the reason that it has none. -/
theorem ofKeyValues_strict_of_first (naming : Naming) {before after : List String}
    (split : m.keys = before ++ key :: after) (named : ∀ k ∈ before, ¬ Slotless k) (slotless : Slotless key) :
    ∃ fault, (ofKeyValues .strict naming m).2 = .error ⟨key, fault⟩ ∧ (fault = .noNumber ↔ Undigited key) := by
  obtain ⟨first, rest, pairs, rfl, tail⟩ := List.map_eq_append_iff.mp split
  obtain ⟨⟨k, contents⟩, later, rfl, rfl, -⟩ := List.map_eq_cons_iff.mp tail
  obtain ⟨⟨key', fault⟩, failed⟩ := slotless_iff_error.mp slotless
  obtain ⟨rfl, reason⟩ := error_of_slotOfKey failed
  refine ⟨fault, ?_, reason⟩
  rw [ofKeyValues, pairs]
  refine addPairs_strict_of_first (fun pair hp => ?_) failed _
  obtain ⟨slot, names⟩ := not_slotless_iff.mp (named pair.1 (List.mem_map.mpr ⟨pair, hp, rfl⟩))
  exact ⟨slot, slotOfKey_eq_ok_iff.mpr names⟩

theorem named_of_ofKeyValues_strict (built : (ofKeyValues .strict naming m).2 = .ok set) :
    ∀ key ∈ m.keys, ¬ Slotless key := by
  intro key among slotless
  obtain ⟨before, first, after, split, named, slotless⟩ := exists_first_slotless ⟨key, among, slotless⟩
  obtain ⟨fault, failed, -⟩ := ofKeyValues_strict_of_first naming split named slotless
  rw [failed] at built
  cases built

/-- A set is built that is not empty, or none is, as the policy has it. -/
theorem exists_filled_iff (policy : KeyPolicy) (naming : Naming) (fitting : m.Fitting) :
    (∃ set, (ofKeyValues policy naming m).2 = .ok set ∧ set.isEmpty = false) ↔ m.Slotted policy := by
  cases policy with
  | strict =>
    constructor
    · rintro ⟨set, built, -⟩
      exact named_of_ofKeyValues_strict built
    · intro named
      obtain ⟨set, built⟩ := exists_ofKeyValues_of_named .strict naming named
      obtain ⟨key, among, -⟩ := fitting
      refine ⟨set, built, (isEmpty_eq_false_of_ofKeyValues built).mpr ⟨key, among, ?_⟩⟩
      exact not_slotless_iff.mp (named key among)
  | skip =>
    obtain ⟨set, built⟩ : ∃ set, (ofKeyValues .skip naming m).2 = .ok set := exists_addPairs_skip _ _ _
    constructor
    · rintro ⟨other, builtToo, filled⟩
      exact (isEmpty_eq_false_of_ofKeyValues builtToo).mp filled
    · exact fun slotted => ⟨set, built, (isEmpty_eq_false_of_ofKeyValues built).mpr slotted⟩

end MacroSet

end

namespace Opener

section

variable {o : Opener} {path : Path} {content : Except IoError Bytes} {m : KeyValues}

theorem planMacros_of_unfitting (parsed : o.readPairs path content = .ok m) (unfitting : ¬ m.Fitting) :
    (o.planMacros path content).result = .error (.noMacros path) := by
  have none : m.hasMacroKey = false := by simpa [← KeyValues.hasMacroKey_iff] using unfitting
  simp [planMacros, parsed, none]

theorem planMacros_of_fitting (parsed : o.readPairs path content = .ok m) (fitting : m.Fitting) :
    (o.planMacros path content).result =
      match (MacroSet.ofKeyValues o.policy o.naming m).2 with
      | .error e => .error (.key e)
      | .ok set => if set.isEmpty then .error (.noMacros path) else .ok (.install set, set) := by
  have some : m.hasMacroKey = true := KeyValues.hasMacroKey_iff.mpr fitting
  rw [planMacros, parsed]
  dsimp only
  rw [if_pos some]
  rcases MacroSet.ofKeyValues o.policy o.naming m with ⟨events, e | set⟩
  · rfl
  · dsimp only
    split <;> rfl

/-- The file asks for a set to be installed exactly if its map comes to one that is not empty. -/
theorem planMacros_eq_ok_iff (parsed : o.readPairs path content = .ok m) (set : MacroSet) :
    (o.planMacros path content).result = .ok (.install set, set) ↔
      m.Fitting ∧ (MacroSet.ofKeyValues o.policy o.naming m).2 = .ok set ∧ set.isEmpty = false := by
  by_cases fitting : m.Fitting
  · rw [planMacros_of_fitting parsed fitting]
    cases (MacroSet.ofKeyValues o.policy o.naming m).2 with
    | error e => simp
    | ok built =>
      dsimp only
      by_cases empty : built.isEmpty = true
      · rw [if_pos empty]
        constructor
        · rintro ⟨⟩
        · rintro ⟨-, ⟨⟩, filled⟩
          rw [empty] at filled
          cases filled
      · rw [if_neg empty]
        constructor
        · rintro ⟨⟩
          exact ⟨fitting, rfl, by simpa using empty⟩
        · rintro ⟨-, ⟨⟩, -⟩
          rfl
  · simp [planMacros_of_unfitting parsed fitting, fitting]

theorem planMacros_of_first_slotless (parsed : o.readPairs path content = .ok m) (fitting : m.Fitting)
    (strict : o.policy = .strict) {before after : List String} {key : String} (split : m.keys = before ++ key :: after)
    (named : ∀ k ∈ before, ¬ Slotless k) (slotless : Slotless key) :
    ∃ fault, (o.planMacros path content).result = .error (.key ⟨key, fault⟩) ∧
      (fault.message = "no trailing number" ↔ Undigited key) := by
  obtain ⟨fault, failed, reason⟩ := MacroSet.ofKeyValues_strict_of_first o.naming split named slotless
  have text : fault.message = "no trailing number" ↔ fault = .noNumber := by cases fault <;> decide
  refine ⟨fault, ?_, text.trans reason⟩
  rw [planMacros_of_fitting parsed fitting, strict, failed]

theorem planMacros_skip_eq_noMacros_iff (parsed : o.readPairs path content = .ok m) (fitting : m.Fitting)
    (skip : o.policy = .skip) :
    (o.planMacros path content).result = .error (.noMacros path) ↔ ∀ key ∈ m.keys, ¬ ∃ slot, NamesSlot key slot := by
  obtain ⟨set, built⟩ : ∃ set, (MacroSet.ofKeyValues o.policy o.naming m).2 = .ok set :=
    skip ▸ MacroSet.exists_addPairs_skip _ _ _
  have slots := MacroSet.isEmpty_eq_false_of_ofKeyValues built
  rw [planMacros_of_fitting parsed fitting, built]
  dsimp only
  by_cases empty : set.isEmpty = true
  · rw [if_pos empty]
    refine ⟨fun _ key among names => ?_, fun _ => rfl⟩
    rw [slots.mpr ⟨key, among, names⟩] at empty
    cases empty
  · rw [if_neg empty]
    obtain ⟨key, among, names⟩ := slots.mp (by simpa using empty)
    exact ⟨fun same => (nomatch same), fun none => absurd names (none key among)⟩

theorem exists_planMacros_eq_ok_iff (parsed : o.readPairs path content = .ok m) :
    (∃ call set, (o.planMacros path content).result = .ok (call, set)) ↔ m.Fitting ∧ m.Slotted o.policy := by
  constructor
  · rintro ⟨call, set, planned⟩
    obtain rfl := planMacros_call planned
    obtain ⟨fitting, built⟩ := (planMacros_eq_ok_iff parsed set).mp planned
    exact ⟨fitting, (MacroSet.exists_filled_iff o.policy o.naming fitting).mp ⟨set, built⟩⟩
  · rintro ⟨fitting, slotted⟩
    obtain ⟨set, built⟩ := (MacroSet.exists_filled_iff o.policy o.naming fitting).mpr slotted
    exact ⟨.install set, set, (planMacros_eq_ok_iff parsed set).mpr ⟨fitting, built⟩⟩

variable {σ : Type} {host : Host (StateM World) σ} {s : σ} {w : World}

theorem loadMacros_of_ok {call : HostCall} {set : MacroSet}
    (h : (o.planMacros path (w.disk.read path)).result = .ok (call, set)) :
    (o.loadMacros path host s w).1 =
      (o.planMacros path (w.disk.read path)).outcome set (host call s w).1 := by
  rw [loadMacros_run, Plan.carryOut_of_ok h]
  rfl

/-- Loading fails with an error of the file exactly when the file asks for no call. -/
theorem loadMacros_eq_file_error_iff {e : FileError} :
    (o.loadMacros path host s w).1.result = .error (.file e) ↔
      (o.planMacros path (w.disk.read path)).result = .error e := by
  cases planned : (o.planMacros path (w.disk.read path)).result with
  | error e' =>
    rw [loadMacros_run, Plan.carryOut_of_error planned]
    change Except.error (OpenError.file e') = Except.error (.file e) ↔ _
    simp
  | ok pair =>
    obtain ⟨call, set⟩ := pair
    rw [loadMacros_of_ok planned]
    cases hr : (host call s w).1.result with
    | ok done => simp [Plan.outcome_of_ok hr]
    | error e' => simp [Plan.outcome_of_error hr]

theorem loadMacros_calls :
    (o.loadMacros path (watched host) (s, []) w).1.host.2 =
      ((o.planMacros path (w.disk.read path)).result.toOption.map Prod.fst).toList := by
  cases planned : (o.planMacros path (w.disk.read path)).result with
  | error e =>
    rw [loadMacros_run, Plan.carryOut_of_error planned]
    rfl
  | ok pair =>
    obtain ⟨call, set⟩ := pair
    rw [loadMacros_of_ok planned]
    rfl

end

/-- A file that parses comes to no macros, to its first bad key, or to one call that installs precisely the slots of its
keys, and the keys alone tell which. Under the strict policy the set that is built is never empty. -/
theorem loadMacros_outcome (o : Opener) (path : Path) {σ : Type} (host : Host (StateM World) σ) (s : σ) (w : World)
    {bytes : Bytes} {m : KeyValues} (content : w.disk.read path = .ok bytes)
    (parsed : o.grammar.readBytes bytes = .ok m) :
    let result := (o.loadMacros path host s w).1.result
    let calls := (o.loadMacros path (watched host) (s, []) w).1.host.2
    (¬ m.Fitting → result = .error (.file (.noMacros path))) ∧
    (m.Fitting → o.policy = .strict → ∀ before key after, m.keys = before ++ key :: after →
      (∀ k ∈ before, ¬ Slotless k) → Slotless key →
        ∃ fault, result = .error (.file (.key ⟨key, fault⟩)) ∧
          (fault.message = "no trailing number" ↔ Undigited key)) ∧
    (m.Fitting → o.policy = .skip →
      (result = .error (.file (.noMacros path)) ↔ ∀ key ∈ m.keys, ∀ stem number, Numbered key stem number →
        number < numberLimit → number = numberLimit - 1 ∧ stem ≠ "f" ∧ stem ≠ "F")) ∧
    (calls ≠ [] ↔ m.Fitting ∧ m.Slotted o.policy) ∧
    (m.Fitting ∧ m.Slotted o.policy → ∃ set : MacroSet, calls = [.install set] ∧ set.isEmpty = false ∧
      (∀ index, (∃ slot ∈ set.slots, slot.index = index) ↔ ∃ key ∈ m.keys, NamesSlot key index) ∧
      result = ((host (.install set) s w).1.result.map fun _ => set).mapError .host) ∧
    (∀ set, (MacroSet.ofKeyValues .strict o.naming m).2 = .ok set → m.Fitting → set.isEmpty = false) := by
  intro result calls
  have read : o.readPairs path (w.disk.read path) = .ok m := by
    rw [content, readPairs, parsed]
  refine ⟨fun unfitting => ?_, fun fitting strict before key after split named slotless => ?_,
    fun fitting skip => ?_, ?_, fun remaining => ?_, fun set built fitting => ?_⟩
  · exact loadMacros_eq_file_error_iff.mpr (planMacros_of_unfitting read unfitting)
  · obtain ⟨fault, planned, reason⟩ := planMacros_of_first_slotless read fitting strict split named slotless
    exact ⟨fault, loadMacros_eq_file_error_iff.mpr planned, reason⟩
  · simp only [← names_no_slot_iff]
    exact loadMacros_eq_file_error_iff.trans (planMacros_skip_eq_noMacros_iff read fitting skip)
  · have called : calls = _ := loadMacros_calls
    rw [called, ← exists_planMacros_eq_ok_iff read]
    cases (o.planMacros path (w.disk.read path)).result with
    | error e => simp [Except.toOption]
    | ok pair => exact ⟨fun _ => ⟨pair.1, pair.2, rfl⟩, fun _ => List.cons_ne_nil _ _⟩
  · obtain ⟨call, set, planned⟩ := (exists_planMacros_eq_ok_iff read).mpr remaining
    obtain rfl := planMacros_call planned
    obtain ⟨-, built, filled⟩ := (planMacros_eq_ok_iff read set).mp planned
    have called : calls = _ := loadMacros_calls
    have given : result = _ := congrArg Opening.result (loadMacros_of_ok planned)
    rw [planned] at called
    exact ⟨set, called, filled, MacroSet.mem_indices_iff built, given⟩
  · have slotted : m.Slotted .strict := MacroSet.named_of_ofKeyValues_strict built
    obtain ⟨other, built', filled⟩ := (MacroSet.exists_filled_iff .strict o.naming fitting).mpr slotted
    rw [built] at built'
    cases built'
    exact filled

/-- The number of the first key is the last of the range, but counted from zero it names no slot. The strict policy
fails on it, the other one installs the slot of the second key. -/
theorem loadMacros_outcome_at_last_number :
    let path : Path := ⟨[0x6D]⟩
    let text := "k18446744073709551615=a\nf1=b\nabc=c"
    let w : World := { disk := Disk.empty.put [[0x6D]] (some (.file (utf8 text) false)) }
    let m := KeyValues.ofList [("k18446744073709551615", "a"), ("f1", "b"), ("abc", "c")]
    w.disk.read path = .ok (utf8 text) ∧ Grammar.readBytes {} (utf8 text) = .ok m ∧ m.Fitting ∧
      (∃ fault, (Opener.loadMacros {} path Recorder.inWorld {} w).1.result =
        .error (.file (.key ⟨"k18446744073709551615", fault⟩))) ∧
      ∃ set : MacroSet, set.isEmpty = false ∧
        (Opener.loadMacros { policy := .skip } path (watched Recorder.inWorld) ({}, []) w).1.host.2 =
          [.install set] := by
  intro path text w m
  have content : w.disk.read path = .ok (utf8 text) := rfl
  have parsed : Grammar.readBytes {} (utf8 text) = .ok m := by decide
  have number : Numbered "f1" "f" 1 ∧ 1 < numberLimit := decode_eq_ok_iff (k := ⟨"f", 1⟩).mp (by decide)
  have fitting : m.Fitting := ⟨"f1", by decide, "f", 1, number⟩
  have slot : NamesSlot "f1" 1 := slotOfKey_eq_ok_iff.mp (by decide)
  have slotless : Slotless "k18446744073709551615" :=
    slotless_iff_error.mpr ⟨⟨"k18446744073709551615", .outOfRange⟩, by decide⟩
  obtain ⟨-, strict, -⟩ := loadMacros_outcome {} path Recorder.inWorld {} w content parsed
  obtain ⟨-, -, -, -, skip, -⟩ :=
    loadMacros_outcome { policy := .skip } path Recorder.inWorld {} w content parsed
  obtain ⟨fault, failed, -⟩ :=
    strict fitting rfl [] "k18446744073709551615" ["f1", "abc"] rfl (List.forall_mem_nil _) slotless
  obtain ⟨set, called, filled, -⟩ := skip ⟨fitting, "f1", by decide, 1, slot⟩
  exact ⟨content, parsed, fitting, ⟨fault, failed⟩, set, filled, called⟩

end Opener

end MacroDeck
