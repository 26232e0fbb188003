import MacroDeck.Proofs.Disk.Directories

namespace MacroDeck

@[simp] theorem Entry.isDirectory_withContent (content : Bytes) (entry : Entry) :
    (entry.withContent content).isDirectory = entry.isDirectory := by
  cases entry <;> rfl

@[simp] theorem Entry.isPassable_withContent (content : Bytes) (entry : Entry) :
    (entry.withContent content).isPassable = entry.isPassable := by
  cases entry <;> rfl

@[simp] theorem Entry.rights_withContent (content : Bytes) (entry : Entry) :
    (entry.withContent content).rights = entry.rights := by
  cases entry <;> rfl

namespace Disk

section

variable (d : Disk) (place : Place) (content : Bytes)

theorem entry_withContent (p : Place) :
    Disk.entry? (d.withContent place content) p =
      if p = place then (d.entry? p).map (.withContent content) else d.entry? p :=
  rfl

@[simp] theorem isSome_entry_withContent (p : Place) :
    (Disk.entry? (d.withContent place content) p).isSome = (d.entry? p).isSome := by
  rw [entry_withContent]
  split <;> simp

theorem look_withContent (p : Place) :
    (d.withContent place content).look p = if p = place then (d.look p).map (.withContent content) else d.look p := by
  simp only [look, entry_withContent]
  by_cases same : p = place
  · simp only [if_pos same]
    cases d.entry? p with
    | none => cases p.isEmpty <;> rfl
    | some entry => cases entry <;> cases p.isEmpty <;> rfl
  · simp only [if_neg same]

/-- What is asked of an entry, and not of its content, is answered alike. -/
theorem any_look_withContent {ask : Entry → Bool} (same : ∀ entry, ask (entry.withContent content) = ask entry)
    (p : Place) : ((d.withContent place content).look p).any ask = (d.look p).any ask := by
  rw [look_withContent]
  split
  next => cases d.look p <;> simp [same]
  next => rfl

@[simp] theorem isDirectory_withContent (p : Place) :
    (d.withContent place content).isDirectory p = d.isDirectory p :=
  d.any_look_withContent place content (Entry.isDirectory_withContent content) p

@[simp] theorem isPassable_withContent (p : Place) :
    (d.withContent place content).isPassable p = d.isPassable p :=
  d.any_look_withContent place content (Entry.isPassable_withContent content) p

@[simp] theorem isWritable_withContent (p : Place) :
    (d.withContent place content).isWritable p = d.isWritable p :=
  d.any_look_withContent place content (fun entry => by rw [entry.rights_withContent]) p

@[simp] theorem enter_withContent (p : Place) (name : Bytes) :
    (d.withContent place content).enter p name = d.enter p name := by
  simp only [enter, isSome_entry_withContent, isPassable_withContent]

@[simp] theorem walk_withContent (start : Place) (names : List Bytes) :
    (d.withContent place content).walk start names = d.walk start names := by
  induction names generalizing start with
  | nil => rfl
  | cons name rest ih => simp only [walk, isDirectory_withContent, enter_withContent, ih]

@[simp] theorem origin_withContent (p : Path) : (d.withContent place content).origin p = d.origin p :=
  rfl

end

/-- The place that names lead to from another, whatever is on the disk. -/
def placeFrom (start : Place) (names : List Bytes) : Place :=
  names.foldl
    (fun place name =>
      if name = Path.here then place else if name = Path.above then place.dropLast else place ++ [name])
    start

theorem step_of_enter {d : Disk} {start next : Place} {name : Bytes} (h : d.enter start name = .ok next) :
    (if name = Path.here then start else if name = Path.above then start.dropLast else start ++ [name]) = next := by
  obtain ⟨-, ⟨here, led⟩ | ⟨notHere, ⟨above, led⟩ | ⟨notAbove, -, -, led⟩⟩⟩ := enter_eq_ok.mp h
  · rwa [if_pos here]
  · rwa [if_neg notHere, if_pos above]
  · rwa [if_neg notHere, if_neg notAbove]

theorem walk_eq_ok_placeFrom {d : Disk} {start last : Place} {names : List Bytes}
    (h : d.walk start names = .ok last) : placeFrom start names = last := by
  induction names generalizing start with
  | nil => exact Except.ok.inj h
  | cons name rest ih =>
    obtain ⟨-, next, entered, walked⟩ := walk_cons_eq_ok.mp h
    rw [placeFrom, List.foldl_cons, step_of_enter entered]
    exact ih walked

/-- A path leads nowhere but to the place that it names. -/
theorem walk_eq_ok_placeOf {d : Disk} {p : Path} {last : Place} (h : d.walk (d.origin p) p.names = .ok last) :
    d.placeOf p = last :=
  walk_eq_ok_placeFrom h

section

variable {d : Disk} {place : Place} {content : Bytes}

theorem find_withContent (p : Path) :
    (d.withContent place content).find p =
      if d.placeOf p = place then (d.find p).map (.withContent content) else d.find p := by
  unfold find
  simp only [origin_withContent, walk_withContent]
  cases checkPath p with
  | error e => simp [bind, Except.bind, Except.map]
  | ok valid =>
    cases walked : d.walk (d.origin p) p.names with
    | error e => simp [bind, Except.bind, Except.map]
    | ok last =>
      rw [walk_eq_ok_placeOf walked]
      dsimp only [bind, Except.bind]
      rw [look_withContent]
      by_cases same : last = place
      · rw [if_pos same, if_pos same]
        cases d.look last with
        | none => rfl
        | some entry => cases entry <;> cases p.endsInSlash <;> rfl
      · rw [if_neg same, if_neg same]

theorem find_withContent_of_ne {p : Path} (apart : d.placeOf p ≠ place) :
    (d.withContent place content).find p = d.find p :=
  (find_withContent p).trans (if_neg apart)

theorem read_withContent {p : Path} (apart : d.placeOf p ≠ place) :
    (d.withContent place content).read p = d.read p := by
  rw [read, find_withContent_of_ne apart]
  rfl

@[simp] theorem exists?_withContent (p : Path) : (d.withContent place content).exists? p = d.exists? p := by
  unfold exists?
  rw [find_withContent]
  split
  next => cases d.find p <;> rfl
  next => rfl

/-- Whether a program can be started does not depend on what is in the file. -/
theorem checkProgram_withContent (args : List String) :
    (d.withContent place content).checkProgram args = d.checkProgram args := by
  cases args with
  | nil => rfl
  | cons name rest =>
    unfold checkProgram
    dsimp only
    rw [find_withContent]
    by_cases same : d.placeOf (.ofString name) = place
    · rw [if_pos same]
      cases d.find (.ofString name) with
      | error e => rfl
      | ok entry =>
        cases entry with
        | directory => rfl
        | file old program rights => cases program <;> rfl
    · rw [if_neg same]

theorem target_withContent (p : Path) : (d.withContent place content).target p = d.target p := by
  simp only [target, parent, origin_withContent, walk_withContent, isDirectory_withContent, isPassable_withContent]

theorem put_withContent {target : Place} (apart : target ≠ place) (entry : Option Entry) :
    (d.withContent place content).put target entry = (d.put target entry).withContent place content := by
  unfold put withContent
  congr 1
  funext p
  by_cases same : p = target
  · simp [same, apart]
  · simp [same]

theorem put_directory_withContent (target : Place) :
    (d.withContent place content).put target (some .directory) =
      (d.put target (some .directory)).withContent place content := by
  unfold put withContent
  congr 1
  funext p
  by_cases same : p = target
  · simp [same, Entry.withContent]
  · simp [same]

theorem makeDirectory_withContent (start : Place) (names : List Bytes) (last : Bytes) :
    (d.withContent place content).makeDirectory start names last =
      (d.makeDirectory start names last).map (·.withContent place content) := by
  unfold makeDirectory
  rw [walk_withContent]
  cases d.walk start names with
  | error e => rfl
  | ok above =>
    dsimp only [bind, Except.bind]
    rw [isDirectory_withContent, enter_withContent, isWritable_withContent, put_directory_withContent]
    cases d.isDirectory above with
    | false => rfl
    | true =>
      cases d.enter above last with
      | ok there => rfl
      | error e => cases e <;> cases d.isWritable above <;> rfl

@[simp] theorem leadsToDirectory_withContent (start : Place) (names : List Bytes) :
    (d.withContent place content).leadsToDirectory start names = d.leadsToDirectory start names := by
  simp only [leadsToDirectory, walk_withContent, isDirectory_withContent]

theorem ensureDirectory_withContent (start : Place) (names : List Bytes) (last : Bytes) :
    (d.withContent place content).ensureDirectory start names last =
      (d.ensureDirectory start names last).map (·.withContent place content) id := by
  unfold ensureDirectory
  rw [makeDirectory_withContent, leadsToDirectory_withContent]
  cases d.makeDirectory start names last <;> rfl

theorem makeDirectoriesFrom_withContent (start : Place) (names : List Bytes) :
    (d.withContent place content).makeDirectoriesFrom start names =
      (d.makeDirectoriesFrom start names).map (·.withContent place content) id := by
  induction names with
  | nil => rfl
  | cons last above ih =>
    have same : (d.withContent place content).makeDirectory start above.reverse last = .error .notFound ↔
        d.makeDirectory start above.reverse last = .error .notFound := by
      rw [makeDirectory_withContent]
      cases d.makeDirectory start above.reverse last <;> simp [Except.map]
    by_cases missing : d.makeDirectory start above.reverse last = .error .notFound
    · rw [makeDirectoriesFrom_of_missing missing, makeDirectoriesFrom_of_missing (same.mpr missing), ih]
      dsimp only [Prod.map, id]
      rw [ensureDirectory_withContent]
      split <;> rfl
    · rw [makeDirectoriesFrom_of_not_missing missing, makeDirectoriesFrom_of_not_missing (missing ∘ same.mp),
        ensureDirectory_withContent]

theorem makeDirectories_withContent (p : Path) :
    (d.withContent place content).makeDirectories p = (d.makeDirectories p).withContent place content := by
  unfold makeDirectories
  cases checkPath p with
  | error e => rfl
  | ok valid =>
    dsimp only
    rw [origin_withContent, makeDirectoriesFrom_withContent]
    rfl

/-- A file that is made empty where there was none is another one than the one that is there already. -/
theorem ensureFile_withContent (occupied : (d.entry? place).isSome) (p : Path) :
    (d.withContent place content).ensureFile p = (d.ensureFile p).map (·.withContent place content) := by
  unfold ensureFile
  rw [target_withContent]
  cases d.target p with
  | error e => rfl
  | ok target =>
    dsimp only [bind, Except.bind]
    rw [entry_withContent, isWritable_withContent]
    by_cases same : target = place
    · subst same
      obtain ⟨entry, there⟩ := Option.isSome_iff_exists.mp occupied
      rw [if_pos rfl, there]
      dsimp only [Option.map_some]
      rw [Entry.rights_withContent]
      cases entry.rights.write <;> rfl
    · rw [if_neg same]
      cases d.entry? target with
      | some entry =>
        dsimp only
        cases entry.rights.write <;> rfl
      | none =>
        dsimp only
        rw [put_withContent same]
        cases d.isWritable target.dropLast <;> rfl

end

end Disk

end MacroDeck
