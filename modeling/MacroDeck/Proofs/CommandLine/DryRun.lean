import MacroDeck.Proofs.CommandLine.InTurn
import MacroDeck.Proofs.Host.Transcript

namespace MacroDeck

/-- The call by which an opening has succeeded. -/
def calledFor? (result : Except OpenError Opened) : Option HostCall :=
  result.toOption.map Opened.call

namespace Opener

/-- The call that the file asks for, if it asks for one. -/
def plannedCall? (o : Opener) (path : Path) (content : Except IoError Bytes) : Option HostCall :=
  (o.plan path content).result.toOption.map Prod.fst

theorem plannedCall?_of_error {o : Opener} {path : Path} {content : Except IoError Bytes} {e : FileError}
    (h : (o.plan path content).result = .error e) : o.plannedCall? path content = none := by
  rw [plannedCall?, h]
  rfl

theorem plannedCall?_of_ok {o : Opener} {path : Path} {content : Except IoError Bytes} {call : HostCall}
    {opened : Opened} (h : (o.plan path content).result = .ok (call, opened)) :
    o.plannedCall? path content = some call := by
  rw [plannedCall?, h]
  rfl

/-- The calls that the files ask for, in order. -/
def plannedCalls (o : Opener) (content : Path → Except IoError Bytes) (paths : List Path) : List HostCall :=
  paths.flatMap fun path => (o.plannedCall? path (content path)).toList

theorem plannedCalls_cons (o : Opener) (content : Path → Except IoError Bytes) (path : Path) (rest : List Path) :
    o.plannedCalls content (path :: rest) =
      (o.plannedCall? path (content path)).toList ++ o.plannedCalls content rest :=
  List.flatMap_cons

theorem plannedCalls_congr (o : Opener) {content content' : Path → Except IoError Bytes} {paths : List Path}
    (same : ∀ path ∈ paths, content path = content' path) :
    o.plannedCalls content paths = o.plannedCalls content' paths :=
  List.flatMap_congr fun path hp => by rw [same path hp]

theorem plannedCalls_proper (o : Opener) (content : Path → Except IoError Bytes) (paths : List Path) :
    ∀ call ∈ o.plannedCalls content paths, call ≠ .launch [] := by
  intro call hc
  obtain ⟨path, -, hp⟩ := List.mem_flatMap.mp hc
  have planned := Option.mem_toList.mp hp
  cases h : (o.plan path (content path)).result with
  | error e => simp [plannedCall?_of_error h] at planned
  | ok pair =>
    obtain ⟨call', opened⟩ := pair
    have eq : call' = call := by simpa [plannedCall?_of_ok h] using planned
    exact eq ▸ plan_call_ne_launch_nil h

/-- What opening a file of this content comes to on every host, in whatever state: an error of the file without a call,
or a single call, whose answer decides. -/
def ComesTo (o : Opener) (path : Path) (content : Except IoError Bytes)
    (outcome : Except FileError (HostCall × Opened)) : Prop :=
  ∀ (σ : Type) (host : Host (StateM World) σ) (s : σ) (w : World), w.disk.read path = content →
    let opening := (o.open path host s w).1
    let calls := (o.open path (watched host) (s, []) w).1.host.2
    match outcome with
    | .error e => calls = [] ∧ opening.result = .error (.file e) ∧ opening.host = s
    | .ok (call, opened) =>
      let reply := (host call s w).1
      calls = [call] ∧ opening.result = (reply.result.map fun _ => opened).mapError .host ∧ opening.host = reply.host

theorem comesTo_plan (o : Opener) (path : Path) (content : Except IoError Bytes) :
    o.ComesTo path content (o.plan path content).result := by
  rintro σ host s w rfl
  cases hp : (o.plan path (w.disk.read path)).result with
  | error e =>
    dsimp only
    rw [open_of_error hp, open_of_error hp]
    exact ⟨rfl, rfl, rfl⟩
  | ok pair =>
    obtain ⟨call, opened⟩ := pair
    dsimp only
    rw [open_of_ok hp, open_of_ok hp]
    exact ⟨rfl, rfl, rfl⟩

/-- An opening fails with an error of the file exactly when the file asks for no call. -/
theorem open_eq_file_error_iff {σ : Type} {host : Host (StateM World) σ} {o : Opener} {path : Path} {s : σ} {w : World}
    {e : FileError} :
    (o.open path host s w).1.result = .error (.file e) ↔ (o.plan path (w.disk.read path)).result = .error e := by
  cases hp : (o.plan path (w.disk.read path)).result with
  | error e' => simp [open_of_error hp]
  | ok pair =>
    obtain ⟨call, opened⟩ := pair
    rw [open_of_ok hp]
    cases hr : (host call s w).1.result with
    | ok done => simp [Plan.outcome_of_ok hr]
    | error e' => simp [Plan.outcome_of_error hr]

theorem open_ne_emptyCommand {σ : Type} {host : Host (StateM World) σ}
    (only : ∀ call s w, (host call s w).1.result = .error .emptyCommand → call = .launch []) (o : Opener) (path : Path)
    (s : σ) (w : World) : (o.open path host s w).1.result ≠ .error (.host .emptyCommand) := by
  intro failed
  cases hp : (o.plan path (w.disk.read path)).result with
  | error e => simp [open_of_error hp] at failed
  | ok pair =>
    obtain ⟨call, opened⟩ := pair
    have proper := plan_call_ne_launch_nil hp
    rw [open_of_ok hp] at failed
    cases hr : (host call s w).1.result with
    | ok done => simp [Plan.outcome_of_ok hr] at failed
    | error e =>
      simp only [Plan.outcome_of_error hr, Except.error.injEq, OpenError.host.injEq] at failed
      exact proper (only call s w (failed ▸ hr))

end Opener

section

variable {σ : Type} {host : Host (StateM World) σ} {paths : List Path} {content : Path → Except IoError Bytes}

/-- A run attempts the calls that its files ask for, in order, on every host that leaves the files alone. -/
theorem openAll_calls (keeps : ∀ call s w, (host call s w).2.disk = w.disk) (o : Opener) (journal : Option Journal)
    (s : σ) (made : List HostCall) {w : World} (files : ∀ path ∈ paths, w.disk.read path = content path) :
    (openAll o journal (watched host) paths (s, made) w).1.2.2 = made ++ o.plannedCalls content paths := by
  induction paths generalizing s made w with
  | nil => exact (List.append_nil made).symm
  | cons path rest ih =>
    have later : ∀ p ∈ rest, w.disk.read p = content p := fun p hp => files p (List.mem_cons_of_mem _ hp)
    rw [openAll_cons, Opener.plannedCalls_cons, ← files path List.mem_cons_self]
    dsimp only
    cases hp : (o.plan path (w.disk.read path)).result with
    | error e =>
      rw [Opener.open_of_error hp, Opener.plannedCall?_of_error hp]
      exact ih s made later
    | ok pair =>
      obtain ⟨call, opened⟩ := pair
      have same : (host call s w).2.disk = w.disk := keeps call s w
      rw [Opener.open_of_ok hp, Opener.plannedCall?_of_ok hp, ← List.append_assoc]
      apply ih
      intro p hm
      exact (congrArg (·.read p) same).trans (later p hm)

end

namespace Transcript

theorem performAll_limit (calls : List HostCall) (t : Transcript) : (t.performAll calls).limit = t.limit := by
  induction calls generalizing t with
  | nil => rfl
  | cons call rest ih =>
    have same : (t.perform call).host.limit = t.limit := by
      unfold perform
      split <;> rfl
    exact (ih _).trans same

theorem open_dry {t : Transcript} (unlimited : t.limit = none) (o : Opener) (path : Path) (w : World) :
    (o.open path inWorld t w).2 = w ∧
      calledFor? (o.open path inWorld t w).1.result = o.plannedCall? path (w.disk.read path) ∧
      (o.open path inWorld t w).1.host = t.performAll (o.plannedCall? path (w.disk.read path)).toList := by
  cases hp : (o.plan path (w.disk.read path)).result with
  | error e =>
    rw [Opener.open_of_error hp, Opener.plannedCall?_of_error hp]
    exact ⟨rfl, rfl, rfl⟩
  | ok pair =>
    obtain ⟨call, opened⟩ := pair
    have done : (t.perform call).result = .ok () := by
      rw [perform_unlimited (Opener.plan_call_ne_launch_nil hp) unlimited]
    have run : inWorld call t w = (t.perform call, w) := rfl
    rw [Opener.open_of_ok hp, run, Plan.outcome_of_ok done, Opener.plannedCall?_of_ok hp, Opener.plan_call_eq hp]
    exact ⟨rfl, rfl, rfl⟩

/-- In a dry run without a limit the files that open are those that ask for a call, and these calls are written down. -/
theorem openInTurn_dry {t : Transcript} (unlimited : t.limit = none) (o : Opener) (paths : List Path) (w : World) :
    let inTurn := openInTurn o inWorld paths t w
    let calls := o.plannedCalls w.disk.read paths
    inTurn.2 = w ∧ (inTurn.1.1.map (·.result)).filterMap calledFor? = calls ∧ inTurn.1.2 = t.performAll calls := by
  induction paths generalizing t with
  | nil => exact ⟨rfl, rfl, rfl⟩
  | cons path rest ih =>
    obtain ⟨world, called, left⟩ := open_dry unlimited o path w
    have unlimited' : (o.open path inWorld t w).1.host.limit = none := by rw [left, performAll_limit, unlimited]
    obtain ⟨world', calls, left'⟩ := ih unlimited'
    dsimp only
    rw [openInTurn_cons, Opener.plannedCalls_cons]
    dsimp only
    rw [world, world', List.map_cons]
    refine ⟨rfl, ?_, ?_⟩
    · cases hc : o.plannedCall? path (w.disk.read path) with
      | none =>
        rw [List.filterMap_cons_none (called.trans hc), calls]
        rfl
      | some call =>
        rw [List.filterMap_cons_some (called.trans hc), calls]
        rfl
    · rw [left', left]
      exact (List.foldl_append ..).symm

end Transcript

/-- Opening a file comes to the same on every host, in whatever state. So a file that fails by itself in a dry run
fails so in a real one, no opening asks for a session without a command, and a dry run writes down the very calls that
the other hosts are asked to perform, so that no other calls would be written so. -/
theorem open_on_every_host (o : Opener) :
    (∀ path content, ∃ outcome, o.ComesTo path content outcome ∧
      ∀ call opened, outcome = .ok (call, opened) → call ≠ .launch []) ∧
    (∀ path e t w, (o.open path Transcript.inWorld t w).1.result = .error (.file e) →
      ∀ h w', w'.disk.read path = w.disk.read path →
        (o.open path LiveHost.inWorld h w').1.result = .error (.file e)) ∧
    (∀ path w,
      (∀ r, (o.open path Recorder.inWorld r w).1.result ≠ .error (.host .emptyCommand)) ∧
      (∀ t, (o.open path Transcript.inWorld t w).1.result ≠ .error (.host .emptyCommand)) ∧
      ∀ h, (o.open path LiveHost.inWorld h w).1.result ≠ .error (.host .emptyCommand)) ∧
    ∀ (paths : List Path) (content : Path → Except IoError Bytes), ∃ calls : List HostCall,
      (∀ others : List HostCall, utf8 (String.join (others.map HostCall.describe)) =
        utf8 (String.join (calls.map HostCall.describe)) → others = calls) ∧
      ∀ journal w, (∀ path ∈ paths, w.disk.read path = content path) →
        (∀ t, t.limit = none → (openAll o journal Transcript.inWorld paths t w).1.2.written =
          t.written ++ utf8 (String.join (calls.map HostCall.describe))) ∧
        (∀ h, (openAll o journal (watched LiveHost.inWorld) paths (h, []) w).1.2.2 = calls) ∧
        ∀ r, (openAll o journal (watched Recorder.inWorld) paths (r, []) w).1.2.2 = calls := by
  refine ⟨fun path content => ?_, fun path e t w failed h w' files => ?_, fun path w => ⟨?_, ?_, ?_⟩,
    fun paths content => ⟨o.plannedCalls content paths, fun others same => ?_, fun journal w files => ⟨?_, ?_, ?_⟩⟩⟩
  · refine ⟨(o.plan path content).result, o.comesTo_plan path content, fun call opened planned => ?_⟩
    exact Opener.plan_call_ne_launch_nil planned
  · have planned := Opener.open_eq_file_error_iff.mp failed
    rw [← files] at planned
    exact Opener.open_eq_file_error_iff.mpr planned
  · intro r
    apply Opener.open_ne_emptyCommand
    exact fun call r _ refused => absurd refused (r.perform_ne_emptyCommand call)
  · intro t
    apply Opener.open_ne_emptyCommand
    exact fun _ _ _ refused => Transcript.eq_launch_nil_of_emptyCommand refused
  · intro h
    apply Opener.open_ne_emptyCommand
    exact fun _ _ _ refused => LiveHost.eq_launch_nil_of_emptyCommand refused
  · exact HostCall.join_describe_injective (utf8_injective same)
  · intro t unlimited
    obtain ⟨-, -, left⟩ := Transcript.openInTurn_dry unlimited o paths w
    rw [openAll_run unaware_transcript]
    dsimp only
    rw [left, o.plannedCalls_congr files, Transcript.written_performAll (o.plannedCalls_proper content paths) unlimited]
  · intro h
    exact openAll_calls LiveHost.host_disk o journal h [] files
  · intro r
    exact openAll_calls (fun _ _ _ => rfl) o journal r [] files

/-- A macro file that is missing asks for nothing, and a script asks for a session that the machine cannot start. -/
theorem open_on_every_host_without_files :
    let o : Opener := {}
    let gone := Path.ofString "gone.macros"
    let script := Path.ofString "./go"
    let w : World := { disk := .empty, starting := fun _ _ _ => .error .notFound }
    (o.open gone LiveHost.inWorld {} w).1.result = .error (.file (.io gone .notFound)) ∧
      (openAll o none (watched LiveHost.inWorld) [gone, script] ({}, []) w).1.2.2 = [.launch ["./go"]] ∧
      (openAll o none Transcript.inWorld [gone, script] {} w).1.2.written = utf8 "start session [\"./go\"]\n" := by
  intro o gone script w
  obtain ⟨-, failing, -, lists⟩ := open_on_every_host o
  obtain ⟨calls, -, attempted⟩ := lists [gone, script] w.disk.read
  obtain ⟨written, asked, -⟩ := attempted none w fun _ _ => rfl
  have launched : (openAll o none (watched LiveHost.inWorld) [gone, script] ({}, []) w).1.2.2 = [.launch ["./go"]] := by
    decide
  have one : calls = [.launch ["./go"]] := (asked {}).symm.trans launched
  have dry : (o.open gone Transcript.inWorld {} w).1.result = .error (.file (.io gone .notFound)) := by
    decide
  refine ⟨failing gone _ {} w dry {} w rfl, launched, ?_⟩
  rw [written {} rfl, one]
  decide +kernel

end MacroDeck
