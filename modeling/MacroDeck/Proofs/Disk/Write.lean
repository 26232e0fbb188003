import MacroDeck.Disk

namespace MacroDeck.Disk

theorem look_concat (d : Disk) (place : Place) (name : Bytes) :
    d.look (place ++ [name]) = d.entry? (place ++ [name]) := by
  simp [look]

theorem look_put {d : Disk} {place target : Place} {entry : Option Entry} (apart : place ≠ target) :
    (d.put target entry).look place = d.look place := by
  simp [look, put, apart]

section

variable {d : Disk} {place target : Place} {entry : Entry}

theorem isDirectory_iff :
    d.isDirectory place = true ↔ ∃ entry, d.look place = some entry ∧ entry.isDirectory = true := by
  unfold isDirectory
  cases d.look place <;> simp

theorem ne_of_isDirectory (h : d.isDirectory place = true) (free : d.isDirectory target = false) : place ≠ target := by
  rintro rfl
  simp [h] at free

/-- What is put in a place that is no directory takes none away. -/
theorem isDirectory_put (h : d.isDirectory place = true) (free : d.isDirectory target = false) :
    (d.put target (some entry)).isDirectory place = true := by
  rw [isDirectory, look_put (ne_of_isDirectory h free)]
  exact h

theorem enter_eq_ok {name : Bytes} {next : Place} :
    d.enter place name = .ok next ↔ d.isPassable place = true ∧
      (name = Path.here ∧ place = next ∨ name ≠ Path.here ∧ (name = Path.above ∧ place.dropLast = next ∨
        name ≠ Path.above ∧ name.length ≤ nameLimit ∧ (d.entry? (place ++ [name])).isSome ∧
          place ++ [name] = next)) := by
  unfold enter
  by_cases passable : d.isPassable place = true
  case neg => simp [passable]
  by_cases here : name = Path.here
  case pos => simp [passable, here]
  by_cases above : name = Path.above
  case pos => simp [passable, above, show Path.above ≠ Path.here by decide]
  by_cases long : name.length > nameLimit
  case pos => simp [passable, here, above, long, Nat.not_le.mpr long]
  by_cases isThere : (d.entry? (place ++ [name])).isSome
  · simp [passable, here, above, long, isThere, Nat.not_lt.mp long]
  · simp [passable, here, above, long, isThere]

theorem enter_put {name : Bytes} {next : Place} (h : d.enter place name = .ok next) (apart : place ≠ target) :
    (d.put target (some entry)).enter place name = .ok next := by
  obtain ⟨passable, steps⟩ := enter_eq_ok.mp h
  refine enter_eq_ok.mpr ⟨by rwa [isPassable, look_put apart], ?_⟩
  refine steps.imp_right fun ⟨notHere, steps⟩ => ⟨notHere, steps.imp_right fun ⟨notAbove, short, isThere, led⟩ => ?_⟩
  refine ⟨notAbove, short, ?_, led⟩
  by_cases same : place ++ [name] = target
  · simp [put, same]
  · simpa [put, same] using isThere

theorem walk_cons_eq_ok {name : Bytes} {names : List Bytes} {last : Place} :
    d.walk place (name :: names) = .ok last ↔
      d.isDirectory place = true ∧ ∃ next, d.enter place name = .ok next ∧ d.walk next names = .ok last := by
  rw [walk]
  cases hd : d.isDirectory place with
  | false => simp
  | true => cases he : d.enter place name <;> simp [bind, Except.bind]

theorem walk_put {names : List Bytes} {last : Place} (h : d.walk place names = .ok last)
    (free : d.isDirectory target = false) : (d.put target (some entry)).walk place names = .ok last := by
  induction names generalizing place with
  | nil => exact h
  | cons name rest ih =>
    obtain ⟨directory, next, entered, walked⟩ := walk_cons_eq_ok.mp h
    have apart := ne_of_isDirectory directory free
    exact walk_cons_eq_ok.mpr ⟨isDirectory_put directory free, next, enter_put entered apart, ih walked⟩

end

theorem bind_eq_ok {ε α β : Type} {x : Except ε α} {f : α → Except ε β} {b : β} :
    x >>= f = .ok b ↔ ∃ a, x = .ok a ∧ f a = .ok b := by
  cases x <;> simp [bind, Except.bind]

theorem walk_append (d : Disk) (start : Place) (names more : List Bytes) :
    d.walk start (names ++ more) = d.walk start names >>= fun place => d.walk place more := by
  induction names generalizing start with
  | nil => rfl
  | cons name rest ih =>
    rw [List.cons_append, walk, walk]
    split
    next =>
      cases d.enter start name with
      | ok next => exact ih next
      | error e => rfl
    next => rfl

theorem walk_concat_eq_ok {d : Disk} {start last : Place} {names : List Bytes} {name : Bytes} :
    d.walk start (names ++ [name]) = .ok last ↔
      ∃ place, d.walk start names = .ok place ∧ d.isDirectory place = true ∧ d.enter place name = .ok last := by
  rw [walk_append, bind_eq_ok]
  simp only [walk_cons_eq_ok]
  simp [walk]

/-- The path names a file of the name in the directory that the other names lead to, if there is one or if one can be
made there. -/
structure Names (d : Disk) (p : Path) (names : List Bytes) (above : Place) (name : Bytes) : Prop where
  checked : checkPath p = .ok ()
  noSlash : p.endsInSlash = false
  split : p.names = names ++ [name]
  walked : d.walk (d.origin p) names = .ok above
  directory : d.isDirectory above = true
  passable : d.isPassable above = true
  notHere : name ≠ Path.here
  notAbove : name ≠ Path.above
  short : name.length ≤ nameLimit
  free : d.isDirectory (above ++ [name]) = false

theorem names_of_target {d : Disk} {p : Path} {target : Place} (h : d.target p = .ok target) :
    ∃ names above name, d.Names p names above name ∧ target = above ++ [name] := by
  obtain ⟨⟨place, name?⟩, parent, h⟩ := bind_eq_ok.mp h
  obtain ⟨⟨⟩, checked, parent⟩ := bind_eq_ok.mp parent
  split at parent
  next =>
    cases parent
    cases h
  next name isLast =>
    obtain ⟨names, whole⟩ := List.getLast?_eq_some_iff.mp isLast
    obtain ⟨above, walked, parent⟩ := bind_eq_ok.mp parent
    rw [whole, List.dropLast_concat] at walked
    split at parent
    next => cases parent
    next directory =>
      split at parent
      next passable =>
        cases parent
        dsimp only at h
        split at h
        next => cases h
        next plain =>
          split at h
          next => cases h
          next short =>
            split at h
            next => cases h
            next free =>
              cases h
              simp only [Bool.or_eq_true, beq_iff_eq, not_or, Bool.not_eq_true] at plain free
              obtain ⟨⟨noSlash, notHere⟩, notAbove⟩ := plain
              have isDirectory : d.isDirectory place = true := by simpa using directory
              exact ⟨names, place, name, ⟨checked, noSlash, whole, walked, isDirectory, passable, notHere, notAbove,
                Nat.not_lt.mp short, free⟩, rfl⟩
      next => cases parent

namespace Names

variable {d : Disk} {p : Path} {names : List Bytes} {above : Place} {name : Bytes}

/-- What the path leads to is what is in the place that it names. -/
theorem find (h : d.Names p names above name) :
    d.find p = ((d.entry? (above ++ [name])).map Except.ok).getD (.error .notFound) := by
  have entered : d.enter above name =
      if (d.entry? (above ++ [name])).isSome then .ok (above ++ [name]) else .error .notFound := by
    simp [enter, h.passable, h.notHere, h.notAbove, Nat.not_lt.mpr h.short]
  unfold Disk.find
  rw [h.checked, h.split, walk_append, h.walked]
  simp only [bind, Except.bind, walk, h.directory, entered, h.noSlash, Bool.false_and, if_true]
  cases there : d.entry? (above ++ [name]) with
  | none => rfl
  | some entry => simp [look_concat, there, pure, Except.pure]

/-- A path still names the file when that has been put in its place. -/
theorem put (h : d.Names p names above name) (content : Bytes) (program : Bool) (rights : Rights) :
    (d.put (above ++ [name]) (some (.file content program rights))).Names p names above name where
  checked := h.checked
  noSlash := h.noSlash
  split := h.split
  walked := walk_put h.walked h.free
  directory := isDirectory_put h.directory h.free
  passable := by
    rw [isPassable, look_put (ne_of_isDirectory h.directory h.free)]
    exact h.passable
  notHere := h.notHere
  notAbove := h.notAbove
  short := h.short
  free := by simp [isDirectory, look_concat, Disk.put, Entry.isDirectory]

end Names

/-- A file that has been written is where the path leads. If it was there before, it is as open to the user as it was. -/
theorem write_eq_ok {d d' : Disk} {p : Path} {content : Bytes} (h : d.write p content = .ok d') :
    ∃ names above name program rights, d.Names p names above name ∧
      d' = d.put (above ++ [name]) (some (.file content program rights)) ∧
      (d.entry? (above ++ [name]) = none ∧ rights = {} ∨
        ∃ old, d.entry? (above ++ [name]) = some (.file old program rights)) := by
  obtain ⟨target, chosen, h⟩ := bind_eq_ok.mp h
  obtain ⟨opened, ensured, written⟩ := bind_eq_ok.mp h
  obtain ⟨names, above, name, named, rfl⟩ := names_of_target chosen
  rw [ensureFile, chosen] at ensured
  dsimp only [bind, Except.bind] at ensured
  cases written
  cases there : d.entry? (above ++ [name]) with
  | none =>
    rw [there] at ensured
    dsimp only at ensured
    split at ensured
    next =>
      cases ensured
      refine ⟨names, above, name, false, {}, named, ?_, .inl ⟨there, rfl⟩⟩
      simp only [withContent, put]
      congr 1
      funext place
      by_cases same : place = above ++ [name] <;> simp [same, Entry.withContent]
    next => cases ensured
  | some entry =>
    cases entry with
    | directory passable rights =>
      have notFree : d.isDirectory (above ++ [name]) = true := by
        simp [isDirectory, look_concat, there, Entry.isDirectory]
      rw [named.free] at notFree
      cases notFree
    | file old program rights =>
      rw [there] at ensured
      dsimp only at ensured
      split at ensured
      next =>
        cases ensured
        refine ⟨names, above, name, program, rights, named, ?_, .inr ⟨old, there⟩⟩
        simp only [withContent, put]
        congr 1
        funext place
        by_cases same : place = above ++ [name] <;> simp [same, there, Entry.withContent]
      next => cases ensured

theorem read_of_not_exists {d : Disk} {p : Path} (h : d.exists? p = false) : ∃ e, d.read p = .error e := by
  unfold exists? at h
  cases found : d.find p with
  | ok entry => simp [found, Except.toBool] at h
  | error e => exact ⟨e, by simp [read, found, bind, Except.bind]⟩

/-- Whether what is at the path is kept from the user. -/
def withholds (d : Disk) (p : Path) : Bool :=
  match d.read p with
  | .error .permissionDenied => true
  | _ => false

/-- A file that has been written reads as what was written, unless it was there before and kept from the user. -/
theorem read_of_write {d d' : Disk} {p : Path} {content : Bytes} (h : d.write p content = .ok d') :
    d'.read p = if d.withholds p then .error .permissionDenied else .ok content := by
  obtain ⟨names, above, name, program, rights, named, rfl, before⟩ := write_eq_ok h
  have found : (d.put (above ++ [name]) (some (.file content program rights))).find p =
      .ok (.file content program rights) := by
    rw [(named.put content program rights).find]
    simp [put]
  have read' : (d.put (above ++ [name]) (some (.file content program rights))).read p =
      if rights.read then .ok content else .error .permissionDenied := by
    rw [read, found]
    rfl
  rw [read', withholds, read, named.find]
  rcases before with ⟨free, rfl⟩ | ⟨old, there⟩
  · rw [free]
    rfl
  · rw [there]
    cases open_ : rights.read <;>
      simp [bind, Except.bind, Entry.rights, open_, throw, throwThe, MonadExceptOf.throw, pure, Except.pure]

end MacroDeck.Disk
