import MacroDeck.Proofs.CommandLine.Home
import MacroDeck.Proofs.Opening.Policy

namespace MacroDeck

/-- The options with the one that leaves out keys without a slot. -/
def Options.skipping (options : Options) : Options :=
  { options with skipInvalid := true }

def Config.skipping (config : Config) : Config :=
  { config with policy := .skip }

/-- What has opened opens as the same. -/
def Kept (result result' : Except OpenError Opened) : Prop :=
  ∀ opened, result = .ok opened → result' = .ok opened

/-- The machine after a dry run from the other one, in which the openings of the files had these results. -/
structure ToldDry (w : World) (paths : List Path) (results : List (Except OpenError Opened)) (after : World) : Prop where
  reported : after.reported = w.reported ++ reports paths results
  printed : after.printed = w.printed ++ String.join ((results.filterMap calledFor?).map HostCall.describe)

section

variable {arguments : List String} {options final : Options} {config : Config} {w : World}

/-- Arguments are read in the same way after the option, which nothing takes back. -/
theorem Request.read_skipping (h : read arguments options = .files final) :
    read arguments options.skipping = .files final.skipping := by
  have done {options : Options} (h : ofOptions options = .files final) :
      ofOptions options.skipping = .files final.skipping := by
    unfold ofOptions at h ⊢
    split at h
    next => cases h
    next filled =>
      cases h
      exact if_neg filled
  fun_induction read arguments options with
  | case1 => exact done h
  | case2 | case3 | case6 | case9 => cases h
  | case4 argument rest options kind ih | case5 argument rest options kind ih | case10 argument rest options kind ih =>
    have later := ih h
    unfold read
    rw [kind]
    exact later
  | case7 argument options kind path rest ih =>
    have later := ih h
    unfold read
    rw [kind]
    exact later
  | case8 argument rest options kind =>
    have ended := done h
    unfold read
    rw [kind]
    exact ended

theorem Options.adjust_skipping (options : Options) (config : Config) :
    options.skipping.adjust config = (options.adjust config).skipping := by
  cases h : options.skipInvalid <;> simp [adjust, skipping, h, Config.skipping]

theorem Options.config_skipping (options : Options) (w : World) :
    w.config options.skipping = ((w.config options).1.map Config.skipping, (w.config options).2) := by
  cases h : options.configPath with
  | none =>
    have unnamed := @config_of_none options.skipping w h
    rw [config_of_none h, unnamed, adjust_skipping]
    rfl
  | some place =>
    have named := @config_of_some options.skipping w place h
    rw [config_of_some h, named]
    cases Config.ofContent (.ofString place) (w.disk.read (.ofString place)) with
    | error e => rfl
    | ok config => exact congrArg (fun adjusted => (Except.ok adjusted, w)) (options.adjust_skipping config)

theorem World.ready_skipping (w : World) (options : Options) (config : Config) :
    w.ready options.skipping config.skipping = w.ready options config := by
  have left : (w.config options.skipping).2 = (w.config options).2 := by rw [options.config_skipping]
  exact congrArg (fun begun => (begun.openJournal config.logLevel).2) left

theorem run_of_config_error {e : ConfigError} (accepted : Request.ofArguments arguments = .files options)
    (failed : (w.config options).1 = .error e) :
    w.run arguments = (1, { (w.config options).2 with reported := (w.config options).2.reported ++ e.report }) := by
  unfold World.run run
  rw [accepted]
  exact bind_run failed

theorem Transcript.open_dry_eq_ok_iff {t : Transcript} (unlimited : t.limit = none) {o : Opener} {path : Path}
    {opened : Opened} :
    (o.open path inWorld t w).1.result = .ok opened ↔
      ∃ call, (o.plan path (w.disk.read path)).result = .ok (call, opened) := by
  cases planned : (o.plan path (w.disk.read path)).result with
  | error e => simp [Opener.open_of_error planned]
  | ok pair =>
    obtain ⟨call, opened'⟩ := pair
    have done : (inWorld call t w).1.result = .ok () :=
      congrArg Reply.result (perform_unlimited (Opener.plan_call_ne_launch_nil planned) unlimited)
    rw [Opener.open_of_ok planned, Plan.outcome_of_ok done]
    simp

/-- In a dry run without a limit each file that opens does so when keys without a slot are left out. -/
theorem Transcript.openInTurn_kept {t t' : Transcript} (unlimited : t.limit = none) (unlimited' : t'.limit = none)
    (o : Opener) (paths : List Path) (w : World) :
    List.Forall₂ Kept ((openInTurn o inWorld paths t w).1.1.map (·.result))
      ((openInTurn o.skipping inWorld paths t' w).1.1.map (·.result)) := by
  induction paths generalizing t t' with
  | nil => exact .nil
  | cons path rest ih =>
    obtain ⟨world, -, left⟩ := open_dry unlimited o path w
    obtain ⟨world', -, left'⟩ := open_dry unlimited' o.skipping path w
    rw [openInTurn_cons, openInTurn_cons]
    dsimp only
    rw [world, world', left, left']
    refine .cons (fun opened first => ?_) (ih ?_ ?_)
    · obtain ⟨call, planned⟩ := (open_dry_eq_ok_iff unlimited).mp first
      exact (open_dry_eq_ok_iff unlimited').mpr ⟨call, Opener.plan_skipping planned ▸ planned⟩
    · rw [performAll_limit, unlimited]
    · rw [performAll_limit, unlimited']

theorem Options.openings_kept (dry : options.dryRun = true) (o : Opener) (w : World) :
    List.Forall₂ Kept (options.openings o w).results (options.skipping.openings o.skipping w).results := by
  have dry' : options.skipping.dryRun = true := dry
  unfold openings
  rw [dry, dry']
  exact Transcript.openInTurn_kept rfl rfl o options.paths w

theorem toldDry_of_files (accepted : Request.ofArguments arguments = .files options) (dry : options.dryRun = true)
    (loaded : (w.config options).1 = .ok config) :
    ToldDry w options.paths (options.openings config.opener (w.ready options config)).results (w.run arguments).2 := by
  have same : w.ready options config = { w with disk := (w.ready options config).disk } := w.ready_eq options config
  have run := (run_of_files accepted loaded).trans (runFiles_run options config _)
  have printed := (congrArg (·.2.printed) run).trans (congrArg (·.printed ++ _) same)
  refine ⟨(congrArg (·.2.reported) run).trans (congrArg (·.reported ++ _) same), printed.trans ?_⟩
  rw [Options.output, dry]
  rfl

end

/-- To leave out the keys of a map without a slot never fails, and comes to what the strict policy makes of the map
without them; the strict policy fails exactly when there are such keys, and otherwise the two agree. So a macro file
that loads does the same when they are left out, whatever the host. With the option in front of it, a command line for a
dry run opens every file that it opens without, and as the same. -/
theorem skipping_keeps_what_opens (naming : Naming) (m : KeyValues) (o : Opener) (arguments : List String) (w : World) :
    (∃ set, (MacroSet.ofKeyValues .skip naming m).2 = .ok set ∧
      (MacroSet.ofKeyValues .strict naming m.withSlots).2 = .ok set) ∧
    ((∃ e, (MacroSet.ofKeyValues .strict naming m).2 = .error e) ↔ ∃ key ∈ m.keys, key ∉ m.withSlots.keys) ∧
    (∀ set, (MacroSet.ofKeyValues .strict naming m).2 = .ok set → (MacroSet.ofKeyValues .skip naming m).2 = .ok set) ∧
    (∀ (σ : Type) (host : Host (StateM World) σ) (s : σ) path set, (o.loadMacros path host s w).1.result = .ok set →
      o.skipping.loadMacros path host s w = o.loadMacros path host s w) ∧
    ∀ options, Request.ofArguments arguments = .files options → options.dryRun = true →
      let arguments' := "--skip-invalid" :: arguments
      Request.ofArguments arguments' = .files options.skipping ∧
      (∀ e, (w.config options).1 = .error e → w.run arguments' = w.run arguments) ∧
      ∀ config, (w.config options).1 = .ok config →
        let ready := w.ready options config
        let results := (options.openings config.opener ready).results
        let results' := (options.skipping.openings config.opener.skipping ready).results
        results.length = options.files.length ∧ List.Forall₂ Kept results results' ∧
          ToldDry w options.paths results (w.run arguments).2 ∧
          ToldDry w options.paths results' (w.run arguments').2 := by
  refine ⟨?_, MacroSet.exists_strict_error_iff naming m, fun set built => ?_,
    fun σ host s path set loaded => Opener.loadMacros_skipping loaded, fun options accepted dry => ?_⟩
  · obtain ⟨set, built⟩ : ∃ set, (MacroSet.ofKeyValues .skip naming m).2 = .ok set :=
      MacroSet.exists_addPairs_skip _ _ _
    exact ⟨set, built, MacroSet.ofKeyValues_skip naming m ▸ built⟩
  · rwa [MacroSet.ofKeyValues_eq_strict_of_named .skip naming (MacroSet.named_of_ofKeyValues_strict built)]
  · have accepted' : Request.ofArguments ("--skip-invalid" :: arguments) = .files options.skipping :=
      Request.read_skipping accepted
    have config' := options.config_skipping w
    refine ⟨accepted', fun e failed => ?_, fun config loaded => ?_⟩
    · have failed' : (w.config options.skipping).1 = .error e := by
        rw [config', failed]
        rfl
      rw [run_of_config_error accepted failed, run_of_config_error accepted' failed', config']
    · have loaded' : (w.config options.skipping).1 = .ok config.skipping := by
        rw [config', loaded]
        rfl
      have told := toldDry_of_files accepted' dry loaded'
      rw [w.ready_skipping] at told
      exact ⟨options.length_openings _ _, Options.openings_kept dry _ _, toldDry_of_files accepted dry loaded, told⟩

/-- A file that fails for a key without a slot is shown with the others once such keys are left out. -/
theorem skipping_keeps_what_opens_beside_failures :
    let m : KeyValues := .ofList [("x", "1"), ("f2", "pwd")]
    let second : MacroSet := .ofList [⟨2, "Macro 2", "pwd"⟩]
    let disk := (Disk.empty.put [utf8 "a.macros"] (some (.file (utf8 "f1=ls") false))).put [utf8 "b.macros"]
      (some (.file (utf8 "x=1\nf2=pwd") false))
    let w : World := { disk }
    let arguments := ["-n", "b.macros", "a.macros"]
    ({} : Grammar).readBytes (utf8 "x=1\nf2=pwd") = .ok m ∧
      (MacroSet.ofKeyValues .skip {} m).2 = .ok second ∧ (MacroSet.ofKeyValues .strict {} m.withSlots).2 = .ok second ∧
      (∃ e, (MacroSet.ofKeyValues .strict {} m).2 = .error e) ∧
      (w.run arguments).2.printed = "install macro set (1 macros)\n    1 \"Macro 1\" = \"ls\"\n" ∧
      (w.run ("--skip-invalid" :: arguments)).2.printed =
        "install macro set (1 macros)\n    2 \"Macro 2\" = \"pwd\"\n" ++
          "install macro set (1 macros)\n    1 \"Macro 1\" = \"ls\"\n" := by
  intro m second disk w arguments
  let first : MacroSet := .ofList [⟨1, "Macro 1", "ls"⟩]
  let options : Options := { files := ["b.macros", "a.macros"], dryRun := true }
  have accepted : Request.ofArguments arguments = .files options := by decide
  have loaded : (w.config options).1 = .ok {} := rfl
  have strict : (options.openings (Config.opener {}) (w.ready options {})).results =
      [.error (.file (.key ⟨"x", .noNumber⟩)), .ok (.macros first)] := by
    decide
  have skipping : (options.skipping.openings (Config.opener {}).skipping (w.ready options {})).results =
      [.ok (.macros second), .ok (.macros first)] := by
    decide
  obtain ⟨⟨set, kept, without⟩, fails, -, -, dry⟩ := skipping_keeps_what_opens {} m {} arguments w
  have built : (MacroSet.ofKeyValues .skip {} m).2 = .ok second := by decide
  obtain rfl : set = second := Except.ok.inj (kept.symm.trans built)
  obtain ⟨-, -, told⟩ := dry options accepted rfl
  obtain ⟨-, -, alone, together⟩ := told {} loaded
  rw [strict] at alone
  rw [skipping] at together
  have silent : w.printed = "" := rfl
  refine ⟨by decide, kept, without, fails.mpr ⟨"x", by decide, by decide⟩, ?_, ?_⟩
  · rw [alone.printed, silent]
    decide +kernel
  · rw [together.printed, silent]
    decide +kernel

end MacroDeck
