import MacroDeck.Proofs.CommandLine.InTurn
import MacroDeck.Proofs.MacroSet.Account
import MacroDeck.Proofs.Opening.MacroOutcome

namespace MacroDeck

/-- The host logs in its own name only. -/
def Discreet {σ : Type} (host : Host (StateM World) σ) : Prop :=
  ∀ call s w, ∀ e ∈ (host call s w).1.events, e.source = programName ++ "::host"

theorem discreet_recorder : Discreet Recorder.inWorld := by
  intro call r w e he
  change e ∈ (r.perform call).events at he
  cases refusal : r.refusal with
  | some message => simp [Recorder.perform, refusal] at he
  | none =>
    cases call with
    | install set =>
      simp only [Recorder.perform, refusal, List.mem_singleton] at he
      rw [he]
      rfl
    | launch args => simp [Recorder.perform, refusal] at he

theorem discreet_transcript : Discreet Transcript.inWorld := by
  intro call t w e he
  change e ∈ (t.perform call).events at he
  unfold Transcript.perform at he
  split at he
  next => cases he
  next => cases he

theorem discreet_live : Discreet LiveHost.inWorld := by
  intro call h w e he
  match call with
  | .install set =>
    obtain rfl := List.mem_singleton.mp he
    rfl
  | .launch [] => cases he
  | .launch (program :: args) =>
    rw [LiveHost.launch_run] at he
    cases started : w.starting w.attempts w.disk (program :: args) with
    | error cause => simp [started] at he
    | ok pid =>
      simp only [started, List.mem_singleton] at he
      rw [he]
      rfl

/-- The event tells neither that a key is skipped nor that a slot is redefined. -/
def Event.Unrelated (e : Event) : Prop :=
  e.skipped? = none ∧ e.redefinition? = none

theorem Event.unrelated_of_source {e : Event} (h : e.source = programName ++ "::host") : e.Unrelated := by
  cases e with
  | skippedKey | redefined => simp [source, programName] at h
  | _ => exact ⟨rfl, rfl⟩

/-- A log that takes all but the finest events. -/
def Verbosity.debug : Verbosity :=
  ⟨Level.debug.depth⟩

theorem Verbosity.admits_debug (e : Event) : debug.admits e = true := by
  cases e <;> rfl

namespace Opener

section

variable {o : Opener} {path : Path} {content : Except IoError Bytes} {m : KeyValues} {set : MacroSet}

theorem planMacros_events (parsed : o.readPairs path content = .ok m) (fitting : m.Fitting)
    (built : (MacroSet.ofKeyValues o.policy o.naming m).2 = .ok set) :
    (o.planMacros path content).events =
      (MacroSet.ofKeyValues o.policy o.naming m).1 ++ if set.isEmpty then [] else [.loaded set.size path] := by
  rw [planMacros, parsed]
  dsimp only
  rw [if_pos (KeyValues.hasMacroKey_iff.mpr fitting)]
  generalize MacroSet.ofKeyValues o.policy o.naming m = outcome at built ⊢
  obtain ⟨events, result⟩ := outcome
  obtain rfl : result = .ok set := built
  dsimp only
  split
  next => exact (List.append_nil _).symm
  next => rfl

variable {σ : Type} {host : Host (StateM World) σ} {s : σ} {w : World}

/-- Whatever comes of the set, nothing is logged after it is built that tells of a key. -/
theorem loadMacros_events (discreet : Discreet host) (parsed : o.readPairs path (w.disk.read path) = .ok m)
    (fitting : m.Fitting) (built : (MacroSet.ofKeyValues o.policy o.naming m).2 = .ok set) :
    ∃ later : List Event,
      (o.loadMacros path host s w).1.events = (MacroSet.ofKeyValues o.policy o.naming m).1 ++ later ∧
      ∀ e ∈ later, e.Unrelated := by
  have events := planMacros_events parsed fitting built
  have outcome := planMacros_of_fitting parsed fitting
  rw [built] at outcome
  dsimp only at outcome
  by_cases empty : set.isEmpty = true
  · rw [if_pos empty] at events outcome
    refine ⟨[], ?_, List.forall_mem_nil _⟩
    rw [loadMacros_run, Plan.carryOut_of_error outcome]
    exact events
  · rw [if_neg empty] at events outcome
    refine ⟨.loaded set.size path :: (host (.install set) s w).1.events, ?_, ?_⟩
    · rw [loadMacros_of_ok outcome, Plan.outcome, events, List.append_assoc]
      rfl
    · refine List.forall_mem_cons.mpr ⟨⟨rfl, rfl⟩, fun e he => ?_⟩
      exact Event.unrelated_of_source (discreet _ s w e he)

end

end Opener

/-- The log of a macro file that is loaded accounts for the keys of the file, whatever comes of the set. -/
theorem Opener.account_loadMacros {o : Opener} {path : Path} {m : KeyValues} {set : MacroSet} {σ : Type}
    {host : Host (StateM World) σ} {s : σ} {w : World} (discreet : Discreet host)
    (parsed : o.readPairs path (w.disk.read path) = .ok m) (fitting : m.Fitting)
    (built : (MacroSet.ofKeyValues o.policy o.naming m).2 = .ok set) (place : Path) :
    MacroSet.Account m.pairs set (noted (some ⟨place, .debug⟩) (o.loadMacros path host s w).1.events) := by
  obtain ⟨later, events, unrelated⟩ := loadMacros_events (s := s) discreet parsed fitting built
  have whole : noted (some ⟨place, .debug⟩) (o.loadMacros path host s w).1.events =
      (MacroSet.ofKeyValues o.policy o.naming m).1 ++ later := by
    rw [← events]
    exact List.filter_eq_self.mpr fun e _ => Verbosity.admits_debug e
  rw [whole]
  exact (MacroSet.account_ofKeyValues built).append_unrelated unrelated

/-- Every key of a macro file for which a set is built is accounted for in the log of its loading: the keys are as many
as the slots of the set, the lines that tell of a slot redefined and the lines that warn of a key skipped. These name the
keys without a slot, in order. A line is told of each key that names the slot of one before it, in order again. It names
the slot, and as what it held the value of the last key before that one. All hosts at hand log in their own name
only. -/
theorem log_accounts_for_keys :
    (Discreet Recorder.inWorld ∧ Discreet Transcript.inWorld ∧ Discreet LiveHost.inWorld) ∧
    ∀ (o : Opener) (path : Path) {σ : Type} {host : Host (StateM World) σ}, Discreet host →
      ∀ (s : σ) (w : World) (place : Path) {bytes : Bytes} {m : KeyValues} {set : MacroSet},
        w.disk.read path = .ok bytes → o.grammar.readBytes bytes = .ok m → m.Fitting →
        (MacroSet.ofKeyValues o.policy o.naming m).2 = .ok set →
        let lines := (noted (some ⟨place, .debug⟩) (o.loadMacros path host s w).1.events).map Event.line
        let redefinitions := lines.filter (·.startsWith "DEBUG termfiles::macros: Macro ")
        let warnings := lines.filter (·.startsWith " WARN termfiles::macros: Skipping ")
        m.size = set.size + redefinitions.length + warnings.length ∧
        List.Forall₂
          (fun key line => ∃ fault : KeyFault,
            line = " WARN termfiles::macros: Skipping invalid macro key " ++ quoted key ++ ": " ++ fault.message)
          (m.keys.filter Slotless) warnings ∧
        (o.policy = .strict → warnings = []) ∧
        ∃ superseding : List String, superseding.Sublist m.keys ∧
          (∀ key, key ∈ superseding ↔ ∃ slot previous, Supersedes m.keys slot previous key) ∧
          List.Forall₂
            (fun key line => ∃ slot previous old, Supersedes m.keys slot previous key ∧ m.get? previous = some old ∧
              line = "DEBUG termfiles::macros: Macro " ++ toString slot ++ " redefined (was " ++ quoted old ++ ")")
            superseding redefinitions := by
  refine ⟨⟨discreet_recorder, discreet_transcript, discreet_live⟩, ?_⟩
  intro o path σ host discreet s w place bytes m set content parsed fitting built lines redefinitions warnings
  have read : o.readPairs path (w.disk.read path) = .ok m := by
    rw [content, Opener.readPairs, parsed]
  obtain ⟨size, -, -, skipped, superseding, sublist, members, retold⟩ :=
    Opener.account_loadMacros (s := s) discreet read fitting built place
  have told : redefinitions = _ := Event.redefinition_lines _
  have warned : warnings = _ := Event.skipping_lines _
  rw [told, warned]
  refine ⟨?_, ?_, fun strict => ?_, superseding, sublist, members, ?_⟩
  · rw [List.length_map, List.length_map]
    exact size
  · rw [KeyValues.keys, ← skipped, List.forall₂_map_left_iff, List.forall₂_map_right_iff]
    exact List.forall₂_same.mpr fun e _ => ⟨e.fault, rfl⟩
  · rw [strict] at built
    have none : m.keys.filter Slotless = [] := by
      simpa using MacroSet.named_of_ofKeyValues_strict built
    rw [List.map_eq_nil_iff.mp (skipped.trans none), List.map_nil]
  · rw [List.forall₂_map_right_iff]
    refine retold.imp fun key line h => ?_
    obtain ⟨previous, supersedes, among⟩ := h
    exact ⟨line.1, previous, line.2, supersedes, KeyValues.mem_pairs_iff.mp among, rfl⟩

/-- Three keys of one slot, of which the first has two lines, and a key without a slot between them. -/
theorem log_accounts_for_keys_of_rivals :
    let o : Opener := { policy := .skip }
    let text := "f1 = a\nm0 = b\nx = c\nF1 = d\nf1 = e\nf2 = g"
    let w : World := { disk := Disk.empty.put [[0x6D]] (some (.file (utf8 text) false)) }
    let m := KeyValues.ofList [("f1", "e"), ("m0", "b"), ("x", "c"), ("F1", "d"), ("f2", "g")]
    let lines := (noted (some ⟨⟨[]⟩, .debug⟩) (o.loadMacros ⟨[0x6D]⟩ LiveHost.inWorld {} w).1.events).map Event.line
    o.grammar.readBytes (utf8 text) = .ok m ∧ m.Fitting ∧
      lines =
        ["DEBUG termfiles::macros: Macro 1 redefined (was \"e\")",
          " WARN termfiles::macros: Skipping invalid macro key \"x\": no trailing number",
          "DEBUG termfiles::macros: Macro 1 redefined (was \"b\")",
          " INFO termfiles::open: Loaded 2 macros from m",
          " INFO termfiles::host: Installing macro set with 2 macros"] ∧
      m.size = 2 + (lines.filter (·.startsWith "DEBUG termfiles::macros: Macro ")).length +
        (lines.filter (·.startsWith " WARN termfiles::macros: Skipping ")).length := by
  intro o text w m lines
  have content : w.disk.read ⟨[0x6D]⟩ = .ok (utf8 text) := rfl
  have parsed : o.grammar.readBytes (utf8 text) = .ok m := by decide
  have fitting : m.Fitting := KeyValues.hasMacroKey_iff.mp (by decide)
  have built : (MacroSet.ofKeyValues o.policy o.naming m).2 =
      .ok (.ofList [⟨1, "Macro 1", "d"⟩, ⟨2, "Macro 2", "g"⟩]) := by decide
  obtain ⟨⟨-, -, live⟩, accounts⟩ := log_accounts_for_keys
  obtain ⟨size, -⟩ := accounts o ⟨[0x6D]⟩ live {} w ⟨[]⟩ content parsed fitting built
  exact ⟨parsed, fitting, by decide +kernel, size⟩

end MacroDeck
