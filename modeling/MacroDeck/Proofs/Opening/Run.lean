import MacroDeck.Proofs.Host.InWorld
import MacroDeck.Proofs.Opening.Plan

namespace MacroDeck

/-- A file is opened, the host is called without a file, it is told to refuse calls or to take them again, or the
files are changed. -/
inductive Step where
  | openFile (path : Path)
  | loadMacros (path : Path)
  | loadSession (path : Path)
  | loadScript (path : Path)
  | install (set : MacroSet)
  | launch (args : List String)
  | refuse (message : Option String)
  | changeFiles (disk : Disk)

/-- What a step gives that succeeds. -/
inductive Answer where
  | opened (opened : Opened)
  | macros (set : MacroSet)
  | session (session : Session)
  | done

/-- A host of a world, with what an order to refuse does to it. -/
structure SteeredHost (σ : Type) where
  host : Host (StateM World) σ
  refuse : Option String → σ → σ

def Recorder.steered : SteeredHost Recorder :=
  ⟨Recorder.host, fun message r => { r with refusal := message }⟩

/-- Whether this host refuses a session is for the machine alone to say. -/
def LiveHost.steered : SteeredHost LiveHost :=
  ⟨LiveHost.host, fun _ h => h⟩

abbrev Result := Except OpenError Answer

def Opening.answer {σ α : Type} (give : α → Answer) (opening : Opening σ α) : Result × σ :=
  (opening.result.map give, opening.host)

def Reply.answer {σ : Type} (reply : Reply σ) : Result × σ :=
  ((reply.result.map fun _ => .done).mapError .host, reply.host)

section

variable {σ : Type} (o : Opener) (h : SteeredHost σ)

def Step.perform : Step → σ → StateM World (Result × σ)
  | openFile path, s => Opening.answer .opened <$> o.open path h.host s
  | loadMacros path, s => Opening.answer .macros <$> o.loadMacros path h.host s
  | loadSession path, s => Opening.answer .session <$> o.loadSession path h.host s
  | loadScript path, s => Opening.answer (fun _ => .done) <$> Opener.loadScript path h.host s
  | install set, s => Reply.answer <$> h.host (.install set) s
  | launch args, s => Reply.answer <$> h.host (.launch args) s
  | refuse message, s => pure (.ok .done, h.refuse message s)
  | changeFiles disk, s => fun w => ((.ok .done, s), { w with disk })

/-- The steps performed one after the other, each on the host and the world that the one before has left. Gives the
steps with their results, and the host in the end. -/
def play : List Step → σ → StateM World (List (Step × Result) × σ)
  | [], s => return ([], s)
  | step :: rest, s => do
    let (result, s) ← step.perform o h s
    let (later, s) ← play rest s
    return ((step, result) :: later, s)

end

/-- The call that a step has made with success, told by its result. -/
def madeCall? : Step × Result → Option HostCall
  | (.openFile _, .ok (.opened (.macros set))) => some (.install set)
  | (.openFile _, .ok (.opened (.session session))) => some (.launch session.command)
  | (.openFile _, .ok (.opened (.script path))) => some (.launch [path.display])
  | (.loadMacros _, .ok (.macros set)) => some (.install set)
  | (.loadSession _, .ok (.session session)) => some (.launch session.command)
  | (.loadScript path, .ok _) => some (.launch [path.display])
  | (.install set, .ok _) => some (.install set)
  | (.launch args, .ok _) => some (.launch args)
  | _ => none

theorem madeCall?_error (step : Step) (e : OpenError) : madeCall? (step, .error e) = none := by
  cases step <;> rfl

def HostCall.set? : HostCall → Option MacroSet
  | install set => some set
  | launch _ => none

def HostCall.args? : HostCall → Option (List String)
  | install _ => none
  | launch args => some args

/-- The sets that the steps of a run have installed, in order. -/
def installedSets (record : List (Step × Result)) : List MacroSet :=
  (record.filterMap madeCall?).filterMap HostCall.set?

/-- The argument lists of the sessions that the steps of a run have started, in order. -/
def startedSessions (record : List (Step × Result)) : List (List String) :=
  (record.filterMap madeCall?).filterMap HostCall.args?

/-- The host notes in its memory each call that it takes, and stays as it is when it fails one. -/
structure SteeredHost.Keeps {σ κ : Type} (h : SteeredHost σ) (memory : σ → κ) (note : κ → HostCall → κ) : Prop where
  taken : ∀ call s w, (h.host call s w).1.result = .ok () → memory (h.host call s w).1.host = note (memory s) call
  failed : ∀ call s w e, (h.host call s w).1.result = .error e → (h.host call s w).1.host = s
  refuse : ∀ message s, memory (h.refuse message s) = memory s

/-- After a step the memory holds the call that the step has made, if it has made one. A step that fails leaves the
whole host as it was. -/
def Accounted {σ κ : Type} (memory : σ → κ) (note : κ → HostCall → κ) (step : Step) (s : σ) (after : Result × σ) :
    Prop :=
  memory after.2 = (madeCall? (step, after.1)).toList.foldl note (memory s) ∧
    ∀ e, after.1 = .error e → after.2 = s

section

variable {σ κ : Type} {o : Opener} {h : SteeredHost σ} {memory : σ → κ} {note : κ → HostCall → κ}

theorem accounted_call {step : Step} {answer : Answer} {call : HostCall} {s after : σ}
    (names : madeCall? (step, .ok answer) = some call) (kept : memory after = note (memory s) call) :
    Accounted memory note step s (.ok answer, after) := by
  refine ⟨?_, fun e failed => nomatch failed⟩
  rw [names]
  exact kept

theorem accounted_error {step : Step} {e : OpenError} {s after : σ} (same : after = s) :
    Accounted memory note step s (.error e, after) := by
  refine ⟨?_, fun _ _ => same⟩
  rw [madeCall?_error, same]
  rfl

theorem carryOut_accounted {α : Type} (keeps : h.Keeps memory note) {p : Plan α} {give : α → Answer} {step : Step}
    (names : ∀ call value, p.result = .ok (call, value) → madeCall? (step, .ok (give value)) = some call)
    (s : σ) (w : World) : Accounted memory note step s ((p.carryOut h.host s w).1.answer give) := by
  cases hp : p.result with
  | error e =>
    rw [Plan.carryOut_of_error hp]
    exact accounted_error rfl
  | ok pair =>
    obtain ⟨call, value⟩ := pair
    have run : (p.carryOut h.host s w).1 = p.outcome value (h.host call s w).1 :=
      congrArg (fun action => (action w).1) (Plan.carryOut_of_ok hp h.host s)
    rw [run]
    cases hr : (h.host call s w).1.result with
    | ok done =>
      have kept := keeps.taken call s w hr
      rw [Plan.outcome_of_ok hr]
      exact accounted_call (names call value hp) kept
    | error e =>
      have same := keeps.failed call s w e hr
      rw [Plan.outcome_of_error hr]
      exact accounted_error same

theorem direct_accounted (keeps : h.Keeps memory note) (call : HostCall) {step : Step}
    (names : madeCall? (step, .ok .done) = some call) (s : σ) (w : World) :
    Accounted memory note step s (h.host call s w).1.answer := by
  cases hr : (h.host call s w).1.result with
  | ok done =>
    have kept := keeps.taken call s w hr
    rw [Reply.answer, hr]
    exact accounted_call names kept
  | error e =>
    have same := keeps.failed call s w e hr
    rw [Reply.answer, hr]
    exact accounted_error same

theorem plan_call {path : Path} {content : Except IoError Bytes} {call : HostCall} {opened : Opened}
    (planned : (o.plan path content).result = .ok (call, opened)) :
    madeCall? (.openFile path, .ok (.opened opened)) = some call := by
  rw [Opener.plan_call_eq planned]
  cases opened <;> rfl

theorem perform_accounted (keeps : h.Keeps memory note) (step : Step) (s : σ) (w : World) :
    Accounted memory note step s (step.perform o h s w).1 := by
  cases step with
  | openFile path =>
    have run : (Step.perform o h (.openFile path) s w).1 =
        ((o.plan path (w.disk.read path)).carryOut h.host s w).1.answer .opened := by
      rw [← Opener.open_run]
      rfl
    rw [run]
    exact carryOut_accounted keeps (fun _ _ planned => plan_call planned) s w
  | loadMacros path =>
    refine carryOut_accounted (p := o.planMacros path (w.disk.read path)) keeps (fun call set planned => ?_) s w
    rw [Opener.planMacros_call planned, madeCall?]
  | loadSession path =>
    refine carryOut_accounted (p := o.planSession path (w.disk.read path)) keeps (fun call session planned => ?_) s w
    rw [Opener.planSession_call planned, madeCall?]
  | loadScript path =>
    refine carryOut_accounted (p := Opener.planScript path) keeps (fun call _ planned => ?_) s w
    rw [Opener.planScript_call planned, madeCall?]
  | install set => exact direct_accounted keeps (.install set) rfl s w
  | launch args => exact direct_accounted keeps (.launch args) rfl s w
  | refuse message => exact ⟨keeps.refuse message s, fun e failed => nomatch failed⟩
  | changeFiles disk => exact ⟨rfl, fun e failed => nomatch failed⟩

theorem play_cons (step : Step) (rest : List Step) (s : σ) (w : World) :
    (play o h (step :: rest) s w).1 =
      ((step, (step.perform o h s w).1.1) ::
          (play o h rest (step.perform o h s w).1.2 (step.perform o h s w).2).1.1,
        (play o h rest (step.perform o h s w).1.2 (step.perform o h s w).2).1.2) :=
  rfl

/-- What the host remembers after a run is what it remembered before, with the calls noted that the steps of the run
have made. -/
theorem play_memory (keeps : h.Keeps memory note) (steps : List Step) (s : σ) (w : World) :
    memory (play o h steps s w).1.2 =
      ((play o h steps s w).1.1.filterMap madeCall?).foldl note (memory s) := by
  induction steps generalizing s w with
  | nil => rfl
  | cons step rest ih =>
    obtain ⟨kept, _⟩ := perform_accounted (o := o) keeps step s w
    rw [play_cons, ih, kept]
    cases hm : madeCall? (step, (step.perform o h s w).1.1) <;> simp [hm]

end

/-- A store with a call noted, beside what the call adds to the sessions. -/
def noteCall {κ : Type} (add : κ → List String → κ) : MacroStore × κ → HostCall → MacroStore × κ
  | (store, sessions), .install set => (store.install set, sessions)
  | (store, sessions), .launch args => (store, add sessions args)

theorem foldl_noteCall {κ : Type} (add : κ → List String → κ) (calls : List HostCall) (store : MacroStore)
    (sessions : κ) : calls.foldl (noteCall add) (store, sessions) =
      ((calls.filterMap HostCall.set?).foldl MacroStore.install store,
        (calls.filterMap HostCall.args?).foldl add sessions) := by
  induction calls generalizing store sessions with
  | nil => rfl
  | cons call rest ih => cases call <;> simp [noteCall, List.filterMap_cons, HostCall.set?, HostCall.args?, ih]

theorem foldl_install (sets : List MacroSet) (store : MacroStore) :
    sets.foldl MacroStore.install store = ⟨sets.getLast?.or store.current, store.installs + sets.length⟩ := by
  induction sets generalizing store with
  | nil => rfl
  | cons set rest ih =>
    rw [List.foldl_cons, ih, List.getLast?_cons]
    cases rest.getLast? <;> simp [MacroStore.install] <;> omega

theorem Recorder.perform_refusing {r : Recorder} {message : String} (h : r.refusal = some message) (call : HostCall) :
    r.perform call = { result := .error (.rejected message), host := r } := by
  simp [Recorder.perform, h]

theorem Recorder.perform_willing {r : Recorder} (h : r.refusal = none) (call : HostCall) :
    (r.perform call).result = .ok () ∧
      ((r.perform call).host.store, (r.perform call).host.sessions) =
        noteCall (fun sessions args => sessions ++ [args]) (r.store, r.sessions) call := by
  cases call <;> simp [Recorder.perform, h, noteCall]

theorem Recorder.steered_keeps :
    Recorder.steered.Keeps (fun r => (r.store, r.sessions)) (noteCall fun sessions args => sessions ++ [args]) where
  taken call r w taken := by
    change (r.perform call).result = .ok () at taken
    cases hr : r.refusal with
    | some message => simp [Recorder.perform_refusing hr] at taken
    | none => exact (Recorder.perform_willing hr call).2
  failed call r w e failed := by
    change (r.perform call).result = .error e at failed
    change (r.perform call).host = r
    cases hr : r.refusal with
    | some message => rw [Recorder.perform_refusing hr]
    | none => simp [(Recorder.perform_willing hr call).1] at failed
  refuse _ _ := rfl

theorem LiveHost.steered_keeps :
    LiveHost.steered.Keeps (fun h => (h.store, h.started.length)) (noteCall fun count _ => count + 1) where
  taken call h w taken := by
    match call with
    | .install set => rfl
    | .launch [] => exact nomatch taken
    | .launch (program :: args) =>
      have run := congrArg Prod.fst (LiveHost.launch_run program args h w)
      change (LiveHost.steered.host (.launch (program :: args)) h w).1 = _ at run
      rw [run] at taken ⊢
      cases hs : w.starting w.attempts w.disk (program :: args) with
      | error cause => simp [hs] at taken
      | ok pid => simp [noteCall]
  failed call h w e failed := by
    match call with
    | .install set => exact nomatch failed
    | .launch [] => rfl
    | .launch (program :: args) =>
      have run := congrArg Prod.fst (LiveHost.launch_run program args h w)
      change (LiveHost.steered.host (.launch (program :: args)) h w).1 = _ at run
      rw [run] at failed ⊢
      cases hs : w.starting w.attempts w.disk (program :: args) with
      | error cause => rfl
      | ok pid => simp [hs] at failed
  refuse _ _ := rfl

/-- After every run both hosts hold the set that was installed last and the number of those installed. The recorder
holds all sessions started, in order, and the live host as many processes. A step that then fails changes nothing. -/
theorem host_after_run (o : Opener) (steps : List Step) (w : World) :
    (let ((record, r), after) := play o Recorder.steered steps {} w;
      r.store.current = (installedSets record).getLast? ∧
      r.store.installs = (installedSets record).length ∧
      r.sessions = startedSessions record ∧
      ∀ (step : Step) (e : OpenError), (step.perform o Recorder.steered r after).1.1 = .error e →
        (step.perform o Recorder.steered r after).1.2 = r) ∧
    (let ((record, h), after) := play o LiveHost.steered steps {} w;
      h.store.current = (installedSets record).getLast? ∧
      h.store.installs = (installedSets record).length ∧
      h.started.length = (startedSessions record).length ∧
      ∀ (step : Step) (e : OpenError), (step.perform o LiveHost.steered h after).1.1 = .error e →
        (step.perform o LiveHost.steered h after).1.2 = h) := by
  constructor
  · have remembered := play_memory (o := o) Recorder.steered_keeps steps {} w
    rw [foldl_noteCall, foldl_install, Prod.mk.injEq] at remembered
    obtain ⟨store, sessions⟩ := remembered
    refine ⟨?_, ?_, ?_, fun step e failed => ?_⟩
    · simp [store, installedSets]
    · simp [store, installedSets]
    · simpa [List.foldl_append_eq_append, ← List.flatMap_def, startedSessions] using sessions
    · exact (perform_accounted Recorder.steered_keeps step _ _).2 e failed
  · have remembered := play_memory (o := o) LiveHost.steered_keeps steps {} w
    rw [foldl_noteCall, foldl_install, Prod.mk.injEq] at remembered
    obtain ⟨store, started⟩ := remembered
    refine ⟨?_, ?_, ?_, fun step e failed => ?_⟩
    · simp [store, installedSets]
    · simp [store, installedSets]
    · simpa [startedSessions] using started
    · exact (perform_accounted LiveHost.steered_keeps step _ _).2 e failed

/-- A set that is refused after one that was taken leaves that one in use, and is not counted. -/
theorem host_after_refused_install :
    let taken := MacroSet.ofList [⟨1, "Macro 1", "ls"⟩]
    let ((_, r), after) := play {} Recorder.steered [.install taken, .refuse (some "full")] {} { disk := .empty };
    r.store.current = some taken ∧ r.store.installs = 1 ∧
    (Step.perform {} Recorder.steered (.install .empty) r after).1.1 = .error (.host (.rejected "full")) ∧
    (Step.perform {} Recorder.steered (.install .empty) r after).1.2 = r :=
  have run := (host_after_run {} [.install (MacroSet.ofList [⟨1, "Macro 1", "ls"⟩]), .refuse (some "full")]
    { disk := .empty }).1
  ⟨run.1, run.2.1, rfl, run.2.2.2 (.install .empty) (.host (.rejected "full")) rfl⟩

end MacroDeck
