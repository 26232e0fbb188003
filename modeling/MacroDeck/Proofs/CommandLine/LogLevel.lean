import MacroDeck.Proofs.CommandLine.Rejected
import MacroDeck.Proofs.Disk.Content

namespace MacroDeck

namespace World

/-- The machine with another content in the file at the place. -/
def withContent (w : World) (place : Place) (content : Bytes) : World :=
  { w with disk := w.disk.withContent place content }

/-- Whether a program starts, and as which process, does not depend on the content of the file at the place. -/
def Indifferent (w : World) (place : Place) (content : Bytes) : Prop :=
  ∀ attempt d args, w.starting attempt (d.withContent place content) args = w.starting attempt d args

section

variable {w : World} {place : Place} {content : Bytes}

theorem settled_withContent : (w.withContent place content).settled = w.settled.withContent place content := by
  have own : (w.withContent place content).ownDirectory? = w.ownDirectory? := rfl
  unfold settled
  rw [own]
  cases w.ownDirectory? with
  | none => rfl
  | some directory =>
    dsimp only
    have same : (w.withContent place content).disk.exists? directory = w.disk.exists? directory :=
      Disk.exists?_withContent directory
    by_cases there : w.disk.exists? directory = true
    · rw [if_pos there, if_pos (same.trans there)]
    · rw [if_neg there, if_neg (same ▸ there)]
      exact congrArg (fun disk => { w with disk }) (Disk.makeDirectories_withContent directory)

theorem openedLog_withContent (occupied : (w.disk.entry? place).isSome) :
    (w.withContent place content).openedLog = (w.openedLog.1, w.openedLog.2.withContent place content) := by
  obtain ⟨entry, there⟩ := Option.isSome_iff_exists.mp occupied
  have stillThere : (w.settled.disk.entry? place).isSome :=
    Option.isSome_iff_exists.mpr ⟨entry, w.extends_settled.entries there⟩
  have ensured : (w.settled.withContent place content).disk.ensureFile w.logPath =
      (w.settled.disk.ensureFile w.logPath).map (·.withContent place content) :=
    Disk.ensureFile_withContent stillThere w.logPath
  have path : (w.withContent place content).logPath = w.logPath := rfl
  rw [openedLog, openedLog, settled_withContent, path, openLog_run, openLog_run, ensured]
  cases w.settled.disk.ensureFile w.logPath <;> rfl

end

end World

/-- The host does not see what the files hold; it changes neither the disk nor how programs start. -/
structure Blind {σ : Type} (host : Host (StateM World) σ) : Prop where
  unseen : ∀ {w : World} {place : Place} {content : Bytes} (call : HostCall) (s : σ), w.Indifferent place content →
    host call s (w.withContent place content) =
      ((host call s w).1, (host call s w).2.withContent place content)
  disk : ∀ call s w, (host call s w).2.disk = w.disk
  starting : ∀ call s w, (host call s w).2.starting = w.starting

theorem blind_transcript : Blind Transcript.inWorld where
  unseen _ _ _ := rfl
  disk _ _ _ := rfl
  starting _ _ _ := rfl

theorem blind_live : Blind LiveHost.inWorld where
  unseen {w place content} call h indifferent := by
    match call with
    | .install set => rfl
    | .launch [] => rfl
    | .launch (program :: args) =>
      have same := indifferent w.attempts w.disk (program :: args)
      rw [LiveHost.launch_run, LiveHost.launch_run]
      dsimp only [World.withContent]
      rw [same]
  disk := LiveHost.host_disk
  starting call h w := by
    match call with
    | .install set => rfl
    | .launch [] => rfl
    | .launch (program :: args) => rw [LiveHost.launch_run]

section

variable {σ : Type} {host : Host (StateM World) σ} {place : Place} {content : Bytes}

theorem open_kept (blind : Blind host) (o : Opener) (path : Path) (s : σ) (w : World) :
    (o.open path host s w).2.disk = w.disk ∧ (o.open path host s w).2.starting = w.starting := by
  cases hp : (o.plan path (w.disk.read path)).result with
  | error e =>
    rw [Opener.open_of_error hp]
    exact ⟨rfl, rfl⟩
  | ok pair =>
    obtain ⟨call, opened⟩ := pair
    rw [Opener.open_of_ok hp]
    exact ⟨blind.disk call s w, blind.starting call s w⟩

theorem open_withContent (blind : Blind host) (o : Opener) {path : Path} (s : σ) {w : World}
    (apart : w.disk.placeOf path ≠ place) (indifferent : w.Indifferent place content) :
    o.open path host s (w.withContent place content) =
      ((o.open path host s w).1, (o.open path host s w).2.withContent place content) := by
  have read : (w.withContent place content).disk.read path = w.disk.read path := Disk.read_withContent apart
  cases hp : (o.plan path (w.disk.read path)).result with
  | error e =>
    rw [Opener.open_of_error hp, Opener.open_of_error (e := e) (read ▸ hp), read]
  | ok pair =>
    obtain ⟨call, opened⟩ := pair
    rw [Opener.open_of_ok hp, Opener.open_of_ok (read ▸ hp), read, blind.unseen call s indifferent]

theorem openInTurn_withContent (blind : Blind host) (o : Opener) {paths : List Path} (s : σ) {w : World}
    (apart : ∀ path ∈ paths, w.disk.placeOf path ≠ place) (indifferent : w.Indifferent place content) :
    openInTurn o host paths s (w.withContent place content) =
      ((openInTurn o host paths s w).1, (openInTurn o host paths s w).2.withContent place content) := by
  induction paths generalizing s w with
  | nil => rfl
  | cons path rest ih =>
    obtain ⟨first, others⟩ := List.forall_mem_cons.mp apart
    obtain ⟨disk, starting⟩ := open_kept blind o path s w
    rw [openInTurn_cons, open_withContent blind o s first indifferent]
    dsimp only
    rw [ih, openInTurn_cons]
    · rwa [disk]
    · rwa [World.Indifferent, starting]

end

theorem Options.openings_withContent (options : Options) (o : Opener) {w : World} {place : Place} {content : Bytes}
    (apart : ∀ path ∈ options.paths, w.disk.placeOf path ≠ place) (indifferent : w.Indifferent place content) :
    options.openings o (w.withContent place content) =
      { options.openings o w with left := (options.openings o w).left.withContent place content } := by
  unfold openings
  split
  · rw [openInTurn_withContent blind_transcript o _ apart indifferent]
    rfl
  · rw [openInTurn_withContent blind_live o _ apart indifferent]
    rfl

def Level.name : Level → String
  | .error => "error"
  | .warn => "warn"
  | .info => "info"
  | .debug => "debug"
  | .trace => "trace"

/-- The text names, in any case of its letters, the least severe level that is let through; "off" lets none through. -/
def NamesBound (text : String) (bound : Option Level) : Prop :=
  text.map Char.toLower = bound.elim "off" Level.name

instance (text : String) (bound : Option Level) : Decidable (NamesBound text bound) :=
  inferInstanceAs (Decidable (_ = _))

/-- Whether the event is at least as severe as the bound. -/
def Event.within (bound : Option Level) (e : Event) : Bool :=
  bound.any (e.level.depth ≤ ·.depth)

theorem Event.within_trace (e : Event) : e.within (some .trace) = true := by
  cases e <;> rfl

theorem Verbosity.admits_ofName {text : String} {bound : Option Level} (named : NamesBound text bound) :
    (ofName text).admits = Event.within bound := by
  funext e
  unfold ofName
  rw [named]
  cases bound with
  | none => cases e <;> rfl
  | some level => cases level <;> rfl

theorem noted_ofName {level : String} {bound : Option Level} (named : NamesBound level bound) (kept : Bool)
    (path : Path) (events : List Event) :
    noted (if kept then some ⟨path, .ofName level⟩ else none) events =
      (if kept then events else []).filter (Event.within bound) := by
  rw [← Verbosity.admits_ofName named]
  cases kept <;> rfl

/-- The files opened with the one configuration and with the other: what the two runs note is the same but for what
their levels let through. -/
theorem runFiles_withContent (options : Options) (config : Config) {w : World} {place : Place} {content : Bytes}
    {level level' : String} {bound bound' : Option Level} (occupied : (w.disk.entry? place).isSome)
    (indifferent : w.Indifferent place content) (apart : ∀ path ∈ options.paths, w.disk.placeOf path ≠ place)
    (named : NamesBound level bound) (named' : NamesBound level' bound') :
    let ran := (runFiles options { config with logLevel := level } : StateM World Nat) w
    let ran' := (runFiles options { config with logLevel := level' } : StateM World Nat) (w.withContent place content)
    ran'.1 = ran.1 ∧ ran'.2.printed = ran.2.printed ∧ ran'.2.reported = ran.2.reported ∧
      ran'.2.disk = ran.2.disk.withContent place content ∧
      ∃ events : List Event, ran.2.log = w.log ++ events.filter (Event.within bound) ∧
        ran'.2.log = w.log ++ events.filter (Event.within bound') := by
  intro ran ran'
  have run : ran = _ := runFiles_run options { config with logLevel := level } w
  have run' : ran' = _ := runFiles_run options { config with logLevel := level' } (w.withContent place content)
  have steady := w.openedLog_eq
  have later : w.openedLog.2.Indifferent place content := by
    rw [steady]
    exact indifferent
  have stillApart : ∀ path ∈ options.paths, w.openedLog.2.disk.placeOf path ≠ place := by
    intro path given
    rw [w.extends_openedLog.placeOf]
    exact apart path given
  have log : w.openedLog.2.log = w.log := by rw [steady]
  dsimp only at run run'
  simp only [World.openJournal_run] at run
  simp only [World.openJournal_run, World.openedLog_withContent occupied] at run'
  rw [Options.openings_withContent _ _ stillApart later] at run'
  let opened := options.openings config.opener w.openedLog.2
  let events := [.opening options.files.length] ++ opened.events ++ [.finished opened.failures]
  refine ⟨(congrArg Prod.fst run').trans (congrArg Prod.fst run).symm,
    (congrArg (·.2.printed) run').trans (congrArg (·.2.printed) run).symm,
    (congrArg (·.2.reported) run').trans (congrArg (·.2.reported) run).symm, ?_,
    if w.openedLog.1 then events else [], ?_, ?_⟩
  · rw [congrArg (·.2.disk) run', congrArg (·.2.disk) run]
    rfl
  · rw [← noted_ofName named w.openedLog.1 w.logPath, ← log]
    exact congrArg (·.2.log) run
  · rw [← noted_ofName named' w.openedLog.1 w.logPath, ← log]
    exact congrArg (·.2.log) run'

/-- The file with the one content or the other leads to configurations that differ in nothing but the level that they
name, and it is none of the files to be opened. -/
structure World.DifferInLevel (w : World) (place : Place) (content : Bytes) (options : Options)
    (bound bound' : Option Level) : Prop where
  apart : ∀ path ∈ options.paths, w.disk.placeOf path ≠ place
  levels : ∃ (config : Config) (level level' : String), NamesBound level bound ∧ NamesBound level' bound' ∧
    (w.config options).1 = .ok { config with logLevel := level } ∧
    ((w.withContent place content).config options).1 = .ok { config with logLevel := level' }

/-- The level decides nothing but what is in the log. Two runs whose configurations differ in the level alone, as a file
that is not among those to be opened has it, end with the same status, output and reports, and leave the same files
but for that one; of what a run notes at the level "trace", it notes at any other what is at least as severe. -/
theorem run_at_another_level {arguments : List String} {w : World} {place : Place} {old content : Bytes}
    {program : Bool} {rights : Rights} {bound bound' : Option Level}
    (file : w.disk.entry? place = some (.file old program rights))
    (indifferent : w.Indifferent place content)
    (differ : ∀ options, Request.ofArguments arguments = .files options →
      w.DifferInLevel place content options bound bound') :
    let ran := w.run arguments
    let ran' := (w.withContent place content).run arguments
    ran'.1 = ran.1 ∧ ran'.2.printed = ran.2.printed ∧ ran'.2.reported = ran.2.reported ∧
      ran'.2.disk = ran.2.disk.withContent place content ∧
      ∃ events : List Event, ran.2.log = w.log ++ events.filter (Event.within bound) ∧
        ran'.2.log = w.log ++ events.filter (Event.within bound') ∧
        (bound' = some .trace → ran'.2.log = w.log ++ events) := by
  intro ran ran'
  obtain ⟨options, request⟩ | ⟨status, asked, text, rejected⟩ := files_or_rejected arguments
  · obtain ⟨apart, config, level, level', named, named', loaded, loaded'⟩ := differ options request
    have occupied : (w.disk.entry? place).isSome := by rw [file]; rfl
    obtain ⟨status, printed, reported, disk, events, log, log'⟩ :=
      runFiles_withContent options config occupied indifferent apart named named'
    rw [← run_eq_runFiles request loaded] at status printed reported disk log
    rw [← run_eq_runFiles request loaded'] at status printed reported disk log'
    refine ⟨status, printed, reported, disk, events, log, log', ?_⟩
    rintro rfl
    rw [List.filter_eq_self.mpr fun e _ => e.within_trace] at log'
    exact log'
  · have run : ran = _ := run_of_rejected (rejected w)
    have run' : ran' = _ := run_of_rejected (rejected (w.withContent place content))
    rw [run, run']
    have silent : w.log = w.log ++ [] := (List.append_nil w.log).symm
    exact ⟨rfl, rfl, rfl, rfl, [], silent, silent, fun _ => silent⟩

/-- Of five events at the level "TRACE", a key that is skipped is the only one that is noted at the level "Warn". -/
theorem run_at_another_level_with_skipped_key :
    let place := [utf8 "c.toml"]
    let content := utf8 "log_level = \"TRACE\""
    let w : World :=
      { disk := (Disk.empty.put place (some (.file (utf8 "log_level = \"Warn\"") false))).put [utf8 "a.macros"]
          (some (.file (utf8 "f1=ls\nx=w") false)) }
    let w' := w.withContent place content
    let arguments := ["-s", "-c", "c.toml", "a.macros"]
    let skipped := Event.skippedKey ⟨"x", .noNumber⟩
    (w'.run arguments).1 = (w.run arguments).1 ∧
      (w'.run arguments).2.printed = (w.run arguments).2.printed ∧
      (w'.run arguments).2.reported = (w.run arguments).2.reported ∧
      (w.run arguments).2.log = [skipped] ∧
      (w'.run arguments).2.log =
        [.opening 1, skipped, .loaded 1 (.ofString "a.macros"), .installing 1, .finished 0] := by
  intro place content w w' arguments skipped
  have indifferent : w.Indifferent place content := fun attempt d args =>
    congrArg (Except.map fun _ => attempt + 1) (Disk.checkProgram_withContent args)
  have request : Request.ofArguments arguments =
      .files { files := ["a.macros"], skipInvalid := true, configPath := some "c.toml" } := by decide
  have differ : ∀ options, Request.ofArguments arguments = .files options →
      w.DifferInLevel place content options (some .warn) (some .trace) := by
    intro options h
    obtain rfl := Request.files.inj (request.symm.trans h)
    exact ⟨by decide, { policy := .skip }, "Warn", "TRACE", by decide +kernel, by decide +kernel,
      by decide +kernel, by decide +kernel⟩
  obtain ⟨status, printed, reported, -, events, log, -, all⟩ := run_at_another_level rfl indifferent differ
  have full : (w'.run arguments).2.log =
      [.opening 1, skipped, .loaded 1 (.ofString "a.macros"), .installing 1, .finished 0] := by
    decide +kernel
  have noted : events = [.opening 1, skipped, .loaded 1 (.ofString "a.macros"), .installing 1, .finished 0] :=
    (all rfl).symm.trans full
  subst noted
  exact ⟨status, printed, reported, log, full⟩

end MacroDeck
