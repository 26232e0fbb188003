import MacroDeck.Proofs.Document.Quotes
import MacroDeck.Proofs.MacroSet.Contents
import MacroDeck.Proofs.Opening.MacroOutcome

namespace MacroDeck

/-- The second set is the first one with the quotes around the contents of its slots stripped. -/
def Stripped (set set' : MacroSet) : Prop :=
  List.Forall₂ (fun s s' => s'.index = s.index ∧ s'.name = s.name ∧ Grammar.Unquotes s.contents s'.contents)
    set.slots set'.slots

/-- Whether the host takes a set depends on the numbers and names of its slots at most. -/
def HeedsLabels {σ : Type} (host : Host (StateM World) σ) (s : σ) : Prop :=
  ∀ set set' w, set.labels = set'.labels →
    (host (.install set) s w).1.result.toBool = (host (.install set') s w).1.result.toBool

theorem heedsLabels_recorder (r : Recorder) : HeedsLabels Recorder.inWorld r := by
  intro set set' w _
  have taken (set : MacroSet) : (Recorder.inWorld (.install set) r w).1.result.toBool = r.refusal.isNone := by
    change (r.perform (.install set)).result.toBool = _
    cases hr : r.refusal <;> simp [Recorder.perform, hr, Except.toBool]
  rw [taken, taken]

theorem heedsLabels_live (h : LiveHost) : HeedsLabels LiveHost.inWorld h :=
  fun _ _ _ _ => rfl

/-- A dry run takes every set as long as there is no end to its room. -/
theorem heedsLabels_transcript {t : Transcript} (unlimited : t.limit = none) : HeedsLabels Transcript.inWorld t := by
  intro set set' w _
  have taken (set : MacroSet) : (Transcript.inWorld (.install set) t w).1.result.toBool = true := by
    change (t.perform (.install set)).result.toBool = true
    simp [Transcript.perform, Transcript.holds, unlimited, Except.toBool]
  rw [taken, taken]

theorem stripped_mapContents (set : MacroSet) : Stripped set (set.mapContents Grammar.unquoted) := by
  rw [Stripped, MacroSet.slots_mapContents, List.forall₂_map_right_iff, List.forall₂_same]
  exact fun s _ => ⟨rfl, rfl, Grammar.unquotes_unquoted s.contents⟩

namespace Opener

def keeping (o : Opener) : Opener :=
  { o with grammar := o.grammar.keeping }

def stripping (o : Opener) : Opener :=
  { o with grammar := o.grammar.stripping }

section

variable {o : Opener} {path : Path} {content : Except IoError Bytes}

theorem readPairs_stripping (o : Opener) (path : Path) (content : Except IoError Bytes) :
    o.stripping.readPairs path content =
      (o.keeping.readPairs path content).map (KeyValues.mapValues Grammar.unquoted) := by
  cases content with
  | error cause => rfl
  | ok bytes =>
    have bytewise : o.stripping.grammar.readBytes bytes = _ := o.grammar.readBytes_stripping bytes
    have kept : o.keeping.grammar = o.grammar.keeping := rfl
    rw [readPairs_ok, readPairs_ok, bytewise, kept]
    cases o.grammar.keeping.readBytes bytes <;> rfl

/-- What the file comes to is decided by its keys, so the quotes go through to the contents of the set. -/
theorem planMacros_stripping (o : Opener) (path : Path) (content : Except IoError Bytes) :
    (o.stripping.planMacros path content).result =
      (o.keeping.planMacros path content).result.map fun planned =>
        (.install (planned.2.mapContents Grammar.unquoted), planned.2.mapContents Grammar.unquoted) := by
  have read := o.readPairs_stripping path content
  cases parsed : o.keeping.readPairs path content with
  | error e =>
    rw [parsed] at read
    rw [planMacros, planMacros, parsed, read]
    rfl
  | ok m =>
    rw [parsed] at read
    have same : (m.mapValues Grammar.unquoted).Fitting ↔ m.Fitting := by
      rw [← KeyValues.hasMacroKey_iff, ← KeyValues.hasMacroKey_iff, KeyValues.hasMacroKey_mapValues]
    by_cases fitting : m.Fitting
    · rw [planMacros_of_fitting parsed fitting, planMacros_of_fitting read (same.mpr fitting),
        MacroSet.ofKeyValues_mapValues]
      have policy : o.stripping.policy = o.keeping.policy := rfl
      have naming : o.stripping.naming = o.keeping.naming := rfl
      rw [policy, naming]
      cases (MacroSet.ofKeyValues o.keeping.policy o.keeping.naming m).2 with
      | error e => rfl
      | ok set =>
        dsimp only [Except.map]
        rw [MacroSet.isEmpty_mapContents]
        split <;> rfl
    · rw [planMacros_of_unfitting parsed fitting, planMacros_of_unfitting read (mt same.mp fitting)]
      rfl

variable {σ : Type} {host : Host (StateM World) σ} {s : σ} {w : World}

/-- A file that asks for a set to be installed gives that set, if the host takes it. -/
theorem loadMacros_eq_ok_iff {set given : MacroSet}
    (planned : (o.planMacros path (w.disk.read path)).result = .ok (.install set, set)) :
    (o.loadMacros path host s w).1.result = .ok given ↔
      (host (.install set) s w).1.result.toBool = true ∧ given = set := by
  rw [loadMacros_of_ok planned]
  cases answer : (host (.install set) s w).1.result with
  | ok done => simp [Plan.outcome_of_ok answer, Except.toBool, eq_comm]
  | error e => simp [Plan.outcome_of_error answer, Except.toBool]

end

end Opener

/-- Texts are read alike whether quotes around values are kept or stripped. They fail with the same error, or give the
same keys in the same order, each with the value or what is between its quotes. So a macro file asks for the same slots
under the same names, fails alike, and is loaded both ways or not at all by every host that does not look at contents.
The hosts do not, but for a transcript with little room left. -/
theorem stripping_touches_values :
    (∀ (g : Grammar) (text : String),
      (∀ e, g.stripping.readText text = .error e ↔ g.keeping.readText text = .error e) ∧
      ∀ m m', g.keeping.readText text = .ok m → g.stripping.readText text = .ok m' →
        List.Forall₂ (fun pair pair' => pair'.1 = pair.1 ∧ Grammar.Unquotes pair.2 pair'.2) m.pairs m'.pairs) ∧
    (∀ (o : Opener) (path : Path) (σ : Type) (host : Host (StateM World) σ) (s : σ) (w : World),
      let kept := (o.keeping.loadMacros path host s w).1.result
      let stripped := (o.stripping.loadMacros path host s w).1.result
      (∀ e, stripped = .error (.file e) ↔ kept = .error (.file e)) ∧
      List.Forall₂ (fun call call' => ∃ set set', call = .install set ∧ call' = .install set' ∧ Stripped set set')
        (o.keeping.loadMacros path (watched host) (s, []) w).1.host.2
        (o.stripping.loadMacros path (watched host) (s, []) w).1.host.2 ∧
      (∀ set set', kept = .ok set → stripped = .ok set' → Stripped set set') ∧
      (HeedsLabels host s → ((∃ set', stripped = .ok set') ↔ ∃ set, kept = .ok set))) ∧
    (∀ r, HeedsLabels Recorder.inWorld r) ∧ (∀ h, HeedsLabels LiveHost.inWorld h) ∧
    ∀ t : Transcript, t.limit = none → HeedsLabels Transcript.inWorld t := by
  refine ⟨fun g text => ⟨fun e => ?_, fun m m' kept stripped => ?_⟩, fun o path σ host s w => ?_,
    heedsLabels_recorder, heedsLabels_live, fun t => heedsLabels_transcript⟩
  · rw [g.readText_stripping]
    cases g.keeping.readText text <;> simp [Except.map]
  · rw [g.readText_stripping, kept] at stripped
    cases stripped
    rw [KeyValues.pairs_mapValues, List.forall₂_map_right_iff, List.forall₂_same]
    exact fun pair _ => ⟨rfl, Grammar.unquotes_unquoted pair.2⟩
  · intro kept stripped
    have planned' := o.planMacros_stripping path (w.disk.read path)
    rw [Opener.loadMacros_calls, Opener.loadMacros_calls, planned']
    cases planned : (o.keeping.planMacros path (w.disk.read path)).result with
    | error e =>
      rw [planned] at planned'
      have failed : kept = .error (.file e) := Opener.loadMacros_eq_file_error_iff.mpr planned
      have failed' : stripped = .error (.file e) := Opener.loadMacros_eq_file_error_iff.mpr planned'
      rw [failed, failed']
      exact ⟨fun _ => .rfl, .nil, nofun, fun _ => by simp⟩
    | ok pair =>
      obtain ⟨call, set⟩ := pair
      obtain rfl := Opener.planMacros_call planned
      rw [planned] at planned'
      have given (set' : MacroSet) : kept = .ok set' ↔ _ := Opener.loadMacros_eq_ok_iff planned
      have given' (set' : MacroSet) : stripped = .ok set' ↔ _ := Opener.loadMacros_eq_ok_iff planned'
      refine ⟨fun e => ?_, .cons ⟨set, _, rfl, rfl, stripped_mapContents set⟩ .nil, fun a b ha hb => ?_,
        fun heeds => ?_⟩
      · rw [Opener.loadMacros_eq_file_error_iff, Opener.loadMacros_eq_file_error_iff, planned, planned']
        simp [Except.map]
      · rw [((given a).mp ha).2, ((given' b).mp hb).2]
        exact stripped_mapContents set
      · simp only [given, given', exists_eq_right]
        rw [heeds _ set w (MacroSet.labels_mapContents _ set)]

/-- The quote is the separator too; one value is in quotes, one is empty between them and one is a quote. -/
theorem stripping_touches_values_between_quotes :
    let g : Grammar := { separator := '"' }
    let text := "m0 \" \"b\"\nf2 \" \"\nm0\"\"\"\n\"m1"
    let sound := "m0 \" \"b\"\nf2 \" \"\nm0\"\"\""
    let m := KeyValues.ofList [("m0", "\"\""), ("f2", "\"")]
    let m' := KeyValues.ofList [("m0", ""), ("f2", "\"")]
    let w : World := { disk := Disk.empty.put [[0x6D]] (some (.file (utf8 sound) false)) }
    g.keeping.readText text = .error (.emptyKey 4) ∧ g.stripping.readText text = .error (.emptyKey 4) ∧
      g.keeping.readText sound = .ok m ∧ g.stripping.readText sound = .ok m' ∧
      List.Forall₂ (fun pair pair' => pair'.1 = pair.1 ∧ Grammar.Unquotes pair.2 pair'.2) m.pairs m'.pairs ∧
      HeedsLabels LiveHost.inWorld {} ∧
      (Opener.loadMacros (Opener.keeping ⟨g, .strict, {}⟩) ⟨[0x6D]⟩ LiveHost.inWorld {} w).1.result =
        .ok (.ofList [⟨1, "Macro 1", "\"\""⟩, ⟨2, "Macro 2", "\""⟩]) ∧
      ∃ set,
        (Opener.loadMacros (Opener.stripping ⟨g, .strict, {}⟩) ⟨[0x6D]⟩ LiveHost.inWorld {} w).1.result = .ok set := by
  intro g text sound m m' w
  obtain ⟨texts, files, -, live, -⟩ := stripping_touches_values
  have failed : g.keeping.readText text = .error (.emptyKey 4) := by decide
  have kept : g.keeping.readText sound = .ok m := by decide
  have stripped : g.stripping.readText sound = .ok m' := by decide
  have loaded : (Opener.loadMacros (Opener.keeping ⟨g, .strict, {}⟩) ⟨[0x6D]⟩ LiveHost.inWorld {} w).1.result =
      .ok (.ofList [⟨1, "Macro 1", "\"\""⟩, ⟨2, "Macro 2", "\""⟩]) := by decide
  obtain ⟨-, -, -, loads⟩ := files ⟨g, .strict, {}⟩ ⟨[0x6D]⟩ LiveHost LiveHost.inWorld {} w
  exact ⟨failed, ((texts g text).1 _).mpr failed, kept, stripped, (texts g sound).2 m m' kept stripped, live {}, loaded,
    (loads (live {})).mpr ⟨_, loaded⟩⟩

end MacroDeck
