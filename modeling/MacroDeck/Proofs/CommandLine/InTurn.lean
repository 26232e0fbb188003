import MacroDeck.CommandLine.Run
import MacroDeck.Proofs.Host.InWorld
import MacroDeck.Proofs.Opening.Plan

namespace MacroDeck

/-- The files opened one after the other on one host, each on the host and the world that the one before has left,
whatever came of that one, and nothing else done. Gives the openings, and the host in the end. -/
def openInTurn {σ : Type} (o : Opener) (host : Host (StateM World) σ) :
    List Path → σ → StateM World (List (Opening σ Opened) × σ)
  | [], s => return ([], s)
  | path :: rest, s => do
    let opening ← o.open path host s
    let (later, s) ← openInTurn o host rest opening.host
    return (opening :: later, s)

/-- The world with another log, other reports and another output. -/
def World.telling (w : World) (log : List Event) (reported printed : String) : World :=
  { w with log, reported, printed }

section

variable (w : World) (log : List Event) (reported printed : String)

@[simp] theorem World.log_telling : (w.telling log reported printed).log = log :=
  rfl

@[simp] theorem World.reported_telling : (w.telling log reported printed).reported = reported :=
  rfl

@[simp] theorem World.printed_telling : (w.telling log reported printed).printed = printed :=
  rfl

@[simp] theorem World.telling_telling (log' : List Event) (reported' printed' : String) :
    (w.telling log reported printed).telling log' reported' printed' = w.telling log' reported' printed' :=
  rfl

end

/-- The host neither sees nor changes what a run tells: its log, its reports and its output. -/
def Unaware {σ : Type} (host : Host (StateM World) σ) : Prop :=
  ∀ call s w log reported printed, host call s (w.telling log reported printed) =
    ((host call s w).1, (host call s w).2.telling log reported printed)

/-- What of the events goes into the log. -/
def noted (journal : Option Journal) (events : List Event) : List Event :=
  journal.elim [] fun j => events.filter j.verbosity.admits

theorem noted_append (journal : Option Journal) (events later : List Event) :
    noted journal (events ++ later) = noted journal events ++ noted journal later := by
  cases journal with
  | none => rfl
  | some j => exact List.filter_append events later

theorem noteIn_run (journal : Option Journal) (events : List Event) (w : World) :
    (noteIn journal events : StateM World Unit) w =
      ((), w.telling (w.log ++ noted journal events) w.reported w.printed) := by
  have each (path : Path) (events : List Event) (w : World) :
      (events.forM (Machine.note path) : StateM World Unit) w =
        ((), w.telling (w.log ++ events) w.reported w.printed) := by
    induction events generalizing w with
    | nil =>
      rw [List.append_nil]
      rfl
    | cons event rest ih =>
      have one : w.log ++ event :: rest = (w.log ++ [event]) ++ rest := by simp
      rw [one]
      exact ih (w.telling (w.log ++ [event]) w.reported w.printed)
  cases journal with
  | none =>
    rw [noted, Option.elim_none, List.append_nil]
    rfl
  | some j => exact each j.path _ w

theorem unaware_live : Unaware LiveHost.inWorld := by
  intro call h w log reported printed
  match call with
  | .install set => rfl
  | .launch [] => rfl
  | .launch (program :: args) =>
    rw [LiveHost.launch_run, LiveHost.launch_run]
    rfl

theorem unaware_transcript : Unaware Transcript.inWorld :=
  fun _ _ _ _ _ _ => rfl

section

variable {σ : Type} {host : Host (StateM World) σ}

theorem open_telling (unaware : Unaware host) (o : Opener) (path : Path) (s : σ) (w : World) (log : List Event)
    (reported printed : String) :
    o.open path host s (w.telling log reported printed) =
      ((o.open path host s w).1, (o.open path host s w).2.telling log reported printed) := by
  cases hp : (o.plan path (w.disk.read path)).result with
  | error e =>
    rw [Opener.open_of_error hp, Opener.open_of_error (w := w.telling log reported printed) hp]
    rfl
  | ok pair =>
    obtain ⟨call, opened⟩ := pair
    rw [Opener.open_of_ok hp, Opener.open_of_ok (w := w.telling log reported printed) hp, unaware]
    rfl

theorem openInTurn_cons (o : Opener) (path : Path) (rest : List Path) (s : σ) (w : World) :
    openInTurn o host (path :: rest) s w =
      (let first := o.open path host s w
      let later := openInTurn o host rest first.1.host first.2
      ((first.1 :: later.1.1, later.1.2), later.2)) :=
  rfl

theorem length_openInTurn (o : Opener) (paths : List Path) (s : σ) (w : World) :
    (openInTurn o host paths s w).1.1.length = paths.length := by
  induction paths generalizing s w with
  | nil => rfl
  | cons path rest ih =>
    rw [openInTurn_cons]
    exact congrArg (· + 1) (ih _ _)

theorem openInTurn_telling (unaware : Unaware host) (o : Opener) (paths : List Path) (s : σ) (w : World)
    (log : List Event) (reported printed : String) :
    openInTurn o host paths s (w.telling log reported printed) =
      ((openInTurn o host paths s w).1, (openInTurn o host paths s w).2.telling log reported printed) := by
  induction paths generalizing s w with
  | nil => rfl
  | cons path rest ih =>
    rw [openInTurn_cons, open_telling unaware]
    dsimp only
    rw [ih, openInTurn_cons]

/-- The log, the reports and the output are after an opening what they were before. -/
theorem open_told (unaware : Unaware host) (o : Opener) (path : Path) (s : σ) (w : World) :
    (o.open path host s w).2.log = w.log ∧ (o.open path host s w).2.reported = w.reported ∧
      (o.open path host s w).2.printed = w.printed := by
  have same : w.telling w.log w.reported w.printed = w := rfl
  have run := open_telling unaware o path s w w.log w.reported w.printed
  rw [same] at run
  rw [congrArg Prod.snd run]
  exact ⟨rfl, rfl, rfl⟩

/-- What is reported of the files, given what each opening came to. -/
def reports (paths : List Path) (results : List (Except OpenError Opened)) : String :=
  String.join (List.zipWith reportLine paths results)

theorem openAll_cons (o : Opener) (journal : Option Journal) (path : Path) (rest : List Path) (s : σ) (w : World) :
    openAll o journal host (path :: rest) s w =
      (let first := o.open path host s w
      let told := first.2.telling (first.2.log ++ noted journal first.1.events)
        (first.2.reported ++ reportLine path first.1.result) first.2.printed
      let later := openAll o journal host rest first.1.host told
      ((if first.1.result.toBool then later.1.1 else later.1.1 + 1, later.1.2), later.2)) := by
  have run : openAll o journal host (path :: rest) s w =
      (let first := o.open path host s w
      let after := ((noteIn journal first.1.events : StateM World Unit) first.2).2
      let told := after.telling after.log (after.reported ++ reportLine path first.1.result) after.printed
      let later := openAll o journal host rest first.1.host told
      ((if first.1.result.toBool then later.1.1 else later.1.1 + 1, later.1.2), later.2)) := rfl
  rw [run]
  simp only [noteIn_run]
  rfl

/-- A run of all the files is the openings in turn, with the number of those that failed, a report of each in order
and their events in the log. -/
theorem openAll_run (unaware : Unaware host) (o : Opener) (journal : Option Journal) (paths : List Path) (s : σ)
    (w : World) :
    openAll o journal host paths s w =
      (let inTurn := openInTurn o host paths s w
      ((inTurn.1.1.countP (!·.result.toBool), inTurn.1.2),
        inTurn.2.telling (w.log ++ noted journal (inTurn.1.1.flatMap (·.events)))
          (w.reported ++ reports paths (inTurn.1.1.map (·.result))) w.printed)) := by
  induction paths generalizing s w with
  | nil =>
    have nothing : noted journal [] = [] := by cases journal <;> rfl
    have run : openInTurn o host [] s w = (([], s), w) := rfl
    rw [run]
    simp only [List.flatMap_nil, nothing, List.append_nil, reports, List.map_nil, List.zipWith_nil_left, String.join_nil,
      String.append_empty]
    rfl
  | cons path rest ih =>
    obtain ⟨log, reported, printed⟩ := open_told unaware o path s w
    rw [openAll_cons]
    dsimp only
    rw [ih, openInTurn_telling unaware, openInTurn_cons]
    simp only [log, reported, printed, World.telling, List.flatMap_cons, noted_append, List.map_cons, reports,
      List.zipWith_cons_cons, String.join_cons, String.append_assoc, List.append_assoc, List.countP_cons]
    cases (o.open path host s w).1.result.toBool <;> rfl

end

end MacroDeck
