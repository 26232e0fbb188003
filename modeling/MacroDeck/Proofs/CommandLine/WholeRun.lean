import MacroDeck.Proofs.CommandLine.DryRun
import MacroDeck.Proofs.CommandLine.Preparing

namespace MacroDeck

/-- The set that an opening has put in use. -/
def loadedSet? : Except OpenError Opened → Option MacroSet
  | .ok (.macros set) => some set
  | _ => none

theorem loadedSet?_outcome {opened : Opened} (other : loadedSet? (.ok opened) = none) {σ : Type} (p : Plan Opened)
    (reply : Reply σ) : loadedSet? (p.outcome opened reply).result = none := by
  cases hr : reply.result with
  | ok done => rwa [Plan.outcome_of_ok hr]
  | error e =>
    rw [Plan.outcome_of_error hr]
    rfl

namespace LiveHost

/-- Only a macro file that opens changes the set in use. -/
theorem open_current (o : Opener) (path : Path) (h : LiveHost) (w : World) :
    (o.open path inWorld h w).1.host.store.current =
      (loadedSet? (o.open path inWorld h w).1.result).or h.store.current := by
  cases hp : (o.plan path (w.disk.read path)).result with
  | error e =>
    rw [Opener.open_of_error hp]
    rfl
  | ok pair =>
    obtain ⟨call, opened⟩ := pair
    rw [Opener.open_of_ok hp, Opener.plan_call_eq hp]
    have store := congrArg MacroStore.current (host_store opened.call h w)
    cases opened with
    | macros set => rfl
    | session described =>
      rw [loadedSet?_outcome rfl]
      exact store
    | script path =>
      rw [loadedSet?_outcome rfl]
      exact store

/-- The set in use in the end is the one that was loaded last. -/
theorem openInTurn_current (o : Opener) (paths : List Path) (h : LiveHost) (w : World) :
    let inTurn := openInTurn o inWorld paths h w
    inTurn.1.2.store.current =
      ((inTurn.1.1.map (·.result)).filterMap loadedSet?).getLast?.or h.store.current := by
  induction paths generalizing h w with
  | nil => rfl
  | cons path rest ih =>
    dsimp only at ih ⊢
    rw [openInTurn_cons]
    dsimp only
    rw [ih, open_current, List.map_cons]
    cases hl : loadedSet? (o.open path inWorld h w).1.result with
    | none => rw [List.filterMap_cons_none hl, Option.none_or]
    | some set =>
      rw [List.filterMap_cons_some hl, List.getLast?_cons]
      cases (List.filterMap loadedSet? _).getLast? <;> rfl

end LiveHost

/-- What comes of all the files: the events on the way, the result of each opening, and the machine as they leave
it. -/
structure Openings where
  events : List Event
  results : List (Except OpenError Opened)
  left : World

def Openings.ofTurn {σ : Type} (turn : (List (Opening σ Opened) × σ) × World) : Openings where
  events := turn.1.1.flatMap (·.events)
  results := turn.1.1.map (·.result)
  left := turn.2

def Openings.failures (opened : Openings) : Nat :=
  opened.results.countP (!·.toBool)

theorem Openings.failures_eq_zero_iff {opened : Openings} :
    opened.failures = 0 ↔ opened.results.all (·.toBool) = true := by
  simp [failures, List.countP_eq_zero]

theorem Openings.failures_ofTurn {σ : Type} (turn : (List (Opening σ Opened) × σ) × World) :
    (ofTurn turn).failures = turn.1.1.countP (!·.result.toBool) :=
  List.countP_map

namespace Options

def paths (options : Options) : List Path :=
  options.files.map Path.ofString

/-- The files opened in turn on the host that the options ask for. -/
def openings (options : Options) (o : Opener) (w : World) : Openings :=
  if options.dryRun then .ofTurn (openInTurn o Transcript.inWorld options.paths {} w)
  else .ofTurn (openInTurn o LiveHost.inWorld options.paths {} w)

/-- What is printed once the files are opened: in a dry run the calls of those that opened, otherwise the table of the
last set among them. -/
def output (options : Options) (results : List (Except OpenError Opened)) : String :=
  if options.dryRun then String.join ((results.filterMap calledFor?).map HostCall.describe)
  else ((results.filterMap loadedSet?).getLast?.map table).getD ""

theorem length_openings (options : Options) (o : Opener) (w : World) :
    (options.openings o w).results.length = options.files.length := by
  have paths : options.paths.length = options.files.length := List.length_map ..
  unfold openings
  split
  · rw [Openings.ofTurn, List.length_map, length_openInTurn, paths]
  · rw [Openings.ofTurn, List.length_map, length_openInTurn, paths]

theorem openings_telling (options : Options) (o : Opener) (w : World) (log : List Event) (reported printed : String) :
    options.openings o (w.telling log reported printed) =
      { options.openings o w with left := (options.openings o w).left.telling log reported printed } := by
  unfold openings
  split
  · rw [openInTurn_telling unaware_transcript]
    rfl
  · rw [openInTurn_telling unaware_live]
    rfl

end Options

theorem Transcript.lossyText_openInTurn (o : Opener) (paths : List Path) (w : World) :
    let inTurn := openInTurn o inWorld paths {} w
    lossyText inTurn.1.2.written =
      String.join (((inTurn.1.1.map (·.result)).filterMap calledFor?).map HostCall.describe) := by
  have unlimited : ({} : Transcript).limit = none := rfl
  obtain ⟨-, called, transcript⟩ := openInTurn_dry unlimited o paths w
  dsimp only
  rw [called, transcript, written_performAll (o.plannedCalls_proper w.disk.read paths) unlimited]
  exact lossyText_utf8 _

theorem openAll_print {σ : Type} {host : Host (StateM World) σ} (unaware : Unaware host) (o : Opener)
    (journal : Option Journal) (paths : List Path) (s : σ) (shown : σ → String) (w : World) :
    (do
      let (failures, s) ← openAll o journal host paths s
      Machine.print (shown s)
      return failures : StateM World Nat) w =
    (let turn := openInTurn o host paths s w
    let opened := Openings.ofTurn turn
    (opened.failures,
      opened.left.telling (w.log ++ noted journal opened.events) (w.reported ++ reports paths opened.results)
        (w.printed ++ shown turn.1.2))) := by
  change (let after := openAll o journal host paths s w
    (after.1.1, after.2.telling after.2.log after.2.reported (after.2.printed ++ shown after.1.2))) = _
  rw [openAll_run unaware]
  exact Prod.ext (Openings.failures_ofTurn _).symm rfl

theorem openAndPrint_run (options : Options) (o : Opener) (journal : Option Journal) (w : World) :
    (openAndPrint options o journal : StateM World Nat) w =
      (let opened := options.openings o w
      (opened.failures,
        opened.left.telling (w.log ++ noted journal opened.events) (w.reported ++ reports options.paths opened.results)
          (w.printed ++ options.output opened.results))) := by
  unfold openAndPrint Options.openings Options.output
  cases options.dryRun with
  | true =>
    refine (openAll_print unaware_transcript o journal _ {} (fun t => lossyText t.written) w).trans ?_
    dsimp only
    rw [Transcript.lossyText_openInTurn]
    rfl
  | false =>
    refine (openAll_print unaware_live o journal _ {} (fun h => (h.store.current.map table).getD "") w).trans ?_
    dsimp only
    rw [LiveHost.openInTurn_current, Option.or_none]
    rfl

theorem runFiles_run (options : Options) (config : Config) (w : World) :
    (runFiles options config : StateM World Nat) w =
      (let begun := w.openJournal config.logLevel
      let opened := options.openings config.opener begun.2
      let events := [.opening options.files.length] ++ opened.events ++ [.finished opened.failures]
      (if opened.failures = 0 then 0 else 1,
        opened.left.telling (begun.2.log ++ noted begun.1 events)
          (begun.2.reported ++ reports options.paths opened.results)
          (begun.2.printed ++ options.output opened.results))) := by
  have run : (runFiles options config : StateM World Nat) w =
      (let begun := w.openJournal config.logLevel
      let entered := ((noteIn begun.1 [.opening options.files.length] : StateM World Unit) begun.2).2
      let done := (openAndPrint options config.opener begun.1 : StateM World Nat) entered
      (if done.1 = 0 then 0 else 1, ((noteIn begun.1 [.finished done.1] : StateM World Unit) done.2).2)) := rfl
  rw [run]
  dsimp only
  rw [noteIn_run, openAndPrint_run]
  simp only [Options.openings_telling, noteIn_run, noted_append, World.telling_telling, World.log_telling,
    World.reported_telling, World.printed_telling, List.append_assoc]
  rfl

theorem run_of_files {arguments : List String} {options : Options} {config : Config} {w : World}
    (accepted : Request.ofArguments arguments = .files options) (loaded : (w.config options).1 = .ok config) :
    w.run arguments = (runFiles options config : StateM World Nat) (w.config options).2 := by
  unfold World.run run
  rw [accepted]
  exact bind_run loaded

/-- A row shows the number of the slot in a column of three, its name in one of twelve, and its contents. -/
theorem tableRow_toList (slot : Slot) :
    (tableRow slot).toList =
      List.replicate (3 - (Nat.toDigits 10 slot.index).length) ' ' ++ Nat.toDigits 10 slot.index ++ [' ', ' '] ++
        slot.name.toList ++ List.replicate (12 - slot.name.toList.length) ' ' ++ [' '] ++ slot.contents.toList ++
        ['\n'] := by
  have parts : tableRow slot = alignRight 3 (toString slot.index) ++ "  " ++ alignLeft 12 slot.name ++ " " ++
      slot.contents ++ "\n" := rfl
  have literals : "  ".toList = [' ', ' '] ∧ " ".toList = [' '] ∧ "\n".toList = ['\n'] := by decide
  have width : (toString slot.index).length = (Nat.toDigits 10 slot.index).length := by
    rw [← String.length_toList, decimal_toList]
  simp only [parts, String.toList_append, alignRight_toList, alignLeft_toList, decimal_toList, literals, width,
    String.length_toList, List.append_assoc]

end MacroDeck
