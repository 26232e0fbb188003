import MacroDeck.Proofs.Disk.Write

namespace MacroDeck.Disk

/-- Whatever is on the first disk is on the second. -/
structure Extends (d d' : Disk) : Prop where
  entries : ∀ {place entry}, d.entry? place = some entry → d'.entry? place = some entry
  current : d'.current = d.current

namespace Extends

theorem refl (d : Disk) : d.Extends d :=
  ⟨id, rfl⟩

theorem trans {d d' d'' : Disk} (first : d.Extends d') (later : d'.Extends d'') : d.Extends d'' :=
  ⟨fun h => later.entries (first.entries h), later.current.trans first.current⟩

theorem put {d : Disk} {place : Place} (free : d.entry? place = none) (entry : Entry) :
    d.Extends (d.put place (some entry)) where
  entries {p e} h := by
    have other : p ≠ place := by
      rintro rfl
      simp [free] at h
    simpa [Disk.put, other] using h
  current := rfl

theorem origin {d d' : Disk} (h : d.Extends d') (p : Path) : d'.origin p = d.origin p := by
  unfold Disk.origin
  rw [h.current]

theorem placeOf {d d' : Disk} (h : d.Extends d') (p : Path) : d'.placeOf p = d.placeOf p := by
  unfold Disk.placeOf
  rw [h.origin]

end Extends

variable {d : Disk} {start : Place} {names : List Bytes} {name : Bytes}

theorem leadsToDirectory_iff :
    d.leadsToDirectory start names = true ↔ ∃ place, d.walk start names = .ok place ∧ d.isDirectory place = true := by
  unfold leadsToDirectory
  cases d.walk start names <;> simp

theorem leadsToDirectory_above (h : d.leadsToDirectory start (names ++ [name]) = true) :
    d.leadsToDirectory start names = true := by
  obtain ⟨last, walked, -⟩ := leadsToDirectory_iff.mp h
  obtain ⟨place, led, directory, -⟩ := walk_concat_eq_ok.mp walked
  exact leadsToDirectory_iff.mpr ⟨place, led, directory⟩

theorem enter_eq_notFound {place : Place} (h : d.enter place name = .error .notFound) :
    d.isPassable place = true ∧ name ≠ Path.here ∧ name ≠ Path.above ∧ name.length ≤ nameLimit ∧
      d.entry? (place ++ [name]) = none := by
  unfold enter at h
  split at h
  next => cases h
  next passable =>
    split at h
    next => cases h
    next notHere =>
      split at h
      next => cases h
      next notAbove =>
        split at h
        next => cases h
        next short =>
          split at h
          next => cases h
          next absent =>
            exact ⟨by simpa using passable, notHere, notAbove, Nat.not_lt.mp short, by simpa using absent⟩

theorem makeDirectory_eq_ok {made : Disk} (h : d.makeDirectory start names name = .ok made) :
    ∃ place, d.walk start names = .ok place ∧ d.isDirectory place = true ∧
      d.enter place name = .error .notFound ∧ made = d.put (place ++ [name]) (some .directory) := by
  obtain ⟨place, walked, h⟩ := bind_eq_ok.mp h
  split at h
  next directory =>
    split at h
    next => cases h
    next absent =>
      split at h
      next => exact ⟨place, walked, directory, absent, (Except.ok.inj h).symm⟩
      next => cases h
    next => cases h
  next => cases h

theorem extends_makeDirectory {made : Disk} (h : d.makeDirectory start names name = .ok made) : d.Extends made := by
  obtain ⟨place, -, -, absent, rfl⟩ := makeDirectory_eq_ok h
  obtain ⟨-, -, -, -, free⟩ := enter_eq_notFound absent
  exact .put free _

theorem extends_ensureFile {p : Path} {made : Disk} (h : d.ensureFile p = .ok made) : d.Extends made := by
  obtain ⟨target, -, h⟩ := bind_eq_ok.mp h
  split at h
  next =>
    split at h
    next =>
      cases h
      exact .refl d
    next => cases h
  next absent =>
    split at h
    next =>
      cases h
      exact .put absent _
    next => cases h

/-- A directory that has just been made is there. -/
theorem makeDirectory_again {made : Disk} (h : d.makeDirectory start names name = .ok made) :
    made.makeDirectory start names name = .error .alreadyExists ∧
      made.leadsToDirectory start (names ++ [name]) = true := by
  obtain ⟨place, walked, directory, absent, rfl⟩ := makeDirectory_eq_ok h
  obtain ⟨passable, notHere, notAbove, short, free⟩ := enter_eq_notFound absent
  have noDirectory : d.isDirectory (place ++ [name]) = false := by simp [isDirectory, look_concat, free]
  have stored : Disk.entry? (d.put (place ++ [name]) (some .directory)) (place ++ [name]) = some .directory := by
    simp [put]
  have stillWalked : (d.put (place ++ [name]) (some .directory)).walk start names = .ok place :=
    walk_put walked noDirectory
  have stillDirectory : (d.put (place ++ [name]) (some .directory)).isDirectory place = true :=
    isDirectory_put directory noDirectory
  have stillPassable : (d.put (place ++ [name]) (some .directory)).isPassable place = true := by
    rw [isPassable, look_put (ne_of_isDirectory directory noDirectory)]
    exact passable
  have entered : (d.put (place ++ [name]) (some .directory)).enter place name = .ok (place ++ [name]) := by
    simp [enter, stillPassable, notHere, notAbove, Nat.not_lt.mpr short, stored]
  constructor
  · simp [makeDirectory, stillWalked, bind, Except.bind, stillDirectory, entered, throw, throwThe,
      MonadExceptOf.throw]
  · exact leadsToDirectory_iff.mpr ⟨_, walk_concat_eq_ok.mpr ⟨place, stillWalked, stillDirectory, entered⟩,
      by simp [isDirectory, look_concat, stored, Entry.isDirectory]⟩

theorem ensureDirectory_of_ok {made : Disk} (h : d.makeDirectory start names name = .ok made) :
    d.ensureDirectory start names name = (made, true) := by
  rw [ensureDirectory, h]

theorem ensureDirectory_of_error {e : IoError} (h : d.makeDirectory start names name = .error e) :
    d.ensureDirectory start names name = (d, d.leadsToDirectory start (names ++ [name])) := by
  rw [ensureDirectory, h]

section

variable {above : List Bytes} {last : Bytes}

theorem makeDirectoriesFrom_of_missing (h : d.makeDirectory start above.reverse last = .error .notFound) :
    d.makeDirectoriesFrom start (last :: above) =
      if (d.makeDirectoriesFrom start above).2 then
        (d.makeDirectoriesFrom start above).1.ensureDirectory start above.reverse last
      else d.makeDirectoriesFrom start above := by
  rw [makeDirectoriesFrom, h]
  obtain ⟨made, done⟩ := d.makeDirectoriesFrom start above
  cases done <;> rfl

theorem makeDirectoriesFrom_of_not_missing (h : d.makeDirectory start above.reverse last ≠ .error .notFound) :
    d.makeDirectoriesFrom start (last :: above) = d.ensureDirectory start above.reverse last := by
  rw [makeDirectoriesFrom]
  split
  next missing => exact absurd missing h
  next => rfl

theorem not_leadsToDirectory_of_above (notAbove : d.leadsToDirectory start above.reverse = false) :
    d.leadsToDirectory start (last :: above).reverse = false := by
  rw [List.reverse_cons]
  exact Bool.eq_false_iff.mpr fun leads => Bool.eq_false_iff.mp notAbove (leadsToDirectory_above leads)

/-- Where the directory above is not there and cannot be made, none can be made in it. -/
theorem makeDirectoriesFrom_of_not_above (notAbove : d.leadsToDirectory start above.reverse = false)
    (failed : d.makeDirectoriesFrom start above = (d, false)) :
    d.makeDirectoriesFrom start (last :: above) = (d, false) := by
  by_cases missing : d.makeDirectory start above.reverse last = .error .notFound
  · rw [makeDirectoriesFrom_of_missing missing, failed]
    rfl
  rw [makeDirectoriesFrom_of_not_missing missing]
  cases h : d.makeDirectory start above.reverse last with
  | ok made =>
    obtain ⟨place, walked, directory, -⟩ := makeDirectory_eq_ok h
    exact absurd (leadsToDirectory_iff.mpr ⟨place, walked, directory⟩) (Bool.eq_false_iff.mp notAbove)
  | error e => rw [ensureDirectory_of_error h, ← List.reverse_cons, not_leadsToDirectory_of_above notAbove]

end

/-- What is left once the directories of the names, last name first, have been made as far as they can be. -/
structure Settled (d : Disk) (start : Place) (names : List Bytes) (left : Disk × Bool) : Prop where
  kept : d.Extends left.1
  /-- Where not all could be made, the names do not lead to a directory. -/
  failed : left.2 = false → left.1.leadsToDirectory start names.reverse = false
  again : left.1.makeDirectoriesFrom start names = left

theorem settled_ensureDirectory {above : List Bytes} {last : Bytes}
    (madeAbove : d.makeDirectory start above.reverse last = .error .notFound →
      d.makeDirectoriesFrom start above = (d, true)) :
    d.Settled start (last :: above) (d.ensureDirectory start above.reverse last) := by
  cases h : d.makeDirectory start above.reverse last with
  | ok made =>
    obtain ⟨again, leads⟩ := makeDirectory_again h
    have present : made.makeDirectory start above.reverse last ≠ .error .notFound := by simp [again]
    rw [ensureDirectory_of_ok h]
    refine ⟨extends_makeDirectory h, nofun, ?_⟩
    rw [makeDirectoriesFrom_of_not_missing present, ensureDirectory_of_error again, leads]
  | error e =>
    rw [ensureDirectory_of_error h]
    refine ⟨.refl d, fun failed => ?_, ?_⟩
    · rw [List.reverse_cons]
      exact failed
    by_cases missing : e = .notFound
    · subst missing
      rw [makeDirectoriesFrom_of_missing h, madeAbove h, if_pos rfl, ensureDirectory_of_error h]
    · have other : d.makeDirectory start above.reverse last ≠ .error .notFound := by simp [h, missing]
      rw [makeDirectoriesFrom_of_not_missing other, ensureDirectory_of_error h]

theorem settled_makeDirectoriesFrom (d : Disk) (start : Place) (names : List Bytes) :
    d.Settled start names (d.makeDirectoriesFrom start names) := by
  induction names with
  | nil => exact ⟨.refl d, nofun, rfl⟩
  | cons last above ih =>
    by_cases missing : d.makeDirectory start above.reverse last = .error .notFound
    · rw [makeDirectoriesFrom_of_missing missing]
      cases done : (d.makeDirectoriesFrom start above).2 with
      | true =>
        have settled : Settled _ start (last :: above) _ :=
          settled_ensureDirectory fun _ => ih.again.trans (Prod.ext rfl done)
        exact ⟨ih.kept.trans settled.kept, settled.failed, settled.again⟩
      | false =>
        have notAbove := ih.failed done
        have same : d.makeDirectoriesFrom start above = ((d.makeDirectoriesFrom start above).1, false) :=
          Prod.ext rfl done
        rw [if_neg Bool.false_ne_true]
        refine ⟨ih.kept, fun _ => not_leadsToDirectory_of_above notAbove, ?_⟩
        exact (makeDirectoriesFrom_of_not_above notAbove (ih.again.trans same)).trans same.symm
    · rw [makeDirectoriesFrom_of_not_missing missing]
      exact settled_ensureDirectory fun h => absurd h missing

theorem extends_makeDirectories (d : Disk) (p : Path) : d.Extends (d.makeDirectories p) := by
  unfold makeDirectories
  split
  next => exact (settled_makeDirectoriesFrom d _ _).kept
  next => exact .refl d

theorem makeDirectories_again (d : Disk) (p : Path) :
    (d.makeDirectories p).makeDirectories p = d.makeDirectories p := by
  unfold makeDirectories
  cases checkPath p with
  | error e => rfl
  | ok valid =>
    have settled := settled_makeDirectoriesFrom d (d.origin p) (p.names.filter (· != Path.here)).reverse
    dsimp only
    rw [settled.kept.origin, settled.again]

end MacroDeck.Disk
