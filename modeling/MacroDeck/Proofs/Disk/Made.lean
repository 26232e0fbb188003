import MacroDeck.Proofs.Disk.Content
import MacroDeck.Proofs.Path.Names

namespace MacroDeck

namespace Disk

/-- The first disk with directories added in some of the places that are free. -/
structure Adds (d d' : Disk) (allowed : Place → Prop) : Prop where
  current : d'.current = d.current
  entries : ∀ place, d'.entry? place = d.entry? place ∨
    d.entry? place = none ∧ d'.entry? place = some .directory ∧ allowed place

namespace Adds

variable {d d' d'' : Disk} {allowed wider : Place → Prop}

theorem refl (d : Disk) (allowed : Place → Prop) : d.Adds d allowed :=
  ⟨rfl, fun _ => .inl rfl⟩

theorem trans (first : d.Adds d' allowed) (later : d'.Adds d'' allowed) : d.Adds d'' allowed := by
  refine ⟨later.current.trans first.current, fun place => ?_⟩
  rcases first.entries place with same | ⟨free, made, among⟩
  · rcases later.entries place with same' | ⟨free', made', among⟩
    · exact .inl (same'.trans same)
    · exact .inr ⟨same ▸ free', made', among⟩
  · rcases later.entries place with same' | ⟨free', -⟩
    · exact .inr ⟨free, same'.trans made, among⟩
    · rw [made] at free'
      cases free'

theorem mono (h : d.Adds d' allowed) (wide : ∀ place, allowed place → wider place) : d.Adds d' wider :=
  ⟨h.current, fun place => (h.entries place).imp_right fun ⟨free, made, among⟩ => ⟨free, made, wide place among⟩⟩

end Adds

/-- A place that some of the names, from the first on, lead to. -/
def Along (start : Place) (names : List Bytes) (place : Place) : Prop :=
  ∃ above, above <+: names ∧ placeFrom start above = place

section

variable {d : Disk} {start : Place} {names above : List Bytes} {name last : Bytes}

theorem placeFrom_concat : placeFrom start (names ++ [name]) =
    if name = Path.here then placeFrom start names
    else if name = Path.above then (placeFrom start names).dropLast
    else placeFrom start names ++ [name] := by
  rw [placeFrom, List.foldl_append]
  rfl

/-- The directory's own names lead nowhere else. -/
theorem placeFrom_filter (start : Place) (names : List Bytes) :
    placeFrom start (names.filter (· != Path.here)) = placeFrom start names := by
  induction names generalizing start with
  | nil => rfl
  | cons name rest ih =>
    by_cases own : name = Path.here
    · rw [List.filter_cons_of_neg (by simp [own]), ih, own]
      rfl
    · rw [List.filter_cons_of_pos (by simp [own])]
      exact ih _

theorem Along.of_filter {place : Place} (h : Along start (names.filter (· != Path.here)) place) :
    Along start names place := by
  obtain ⟨above, ⟨rest, whole⟩, leads⟩ := h
  obtain ⟨above', rest', rfl, rfl, -⟩ := List.filter_eq_append_iff.mp whole.symm
  exact ⟨above', List.prefix_append above' rest', (placeFrom_filter start above').symm.trans leads⟩

theorem Along.of_above {place : Place} (h : Along start above.reverse place) :
    Along start (last :: above).reverse place := by
  obtain ⟨some, isPrefix, leads⟩ := h
  rw [List.reverse_cons]
  exact ⟨some, isPrefix.trans (List.prefix_append _ _), leads⟩

theorem adds_makeDirectory {made : Disk} (h : d.makeDirectory start names name = .ok made) :
    d.Adds made (Along start (names ++ [name])) := by
  obtain ⟨place, walked, -, absent, rfl⟩ := makeDirectory_eq_ok h
  obtain ⟨-, notHere, notAbove, -, free⟩ := enter_eq_notFound absent
  refine ⟨rfl, fun p => ?_⟩
  by_cases same : p = place ++ [name]
  · subst same
    refine .inr ⟨free, if_pos rfl, names ++ [name], List.prefix_refl _, ?_⟩
    rw [placeFrom_concat, if_neg notHere, if_neg notAbove, walk_eq_ok_placeFrom walked]
  · exact .inl (if_neg same)

theorem adds_ensureDirectory : d.Adds (d.ensureDirectory start names name).1 (Along start (names ++ [name])) := by
  cases h : d.makeDirectory start names name with
  | ok made =>
    rw [ensureDirectory_of_ok h]
    exact adds_makeDirectory h
  | error e =>
    rw [ensureDirectory_of_error h]
    exact .refl d _

theorem adds_makeDirectoriesFrom (d : Disk) (start : Place) (names : List Bytes) :
    d.Adds (d.makeDirectoriesFrom start names).1 (Along start names.reverse) := by
  induction names with
  | nil => exact .refl d _
  | cons last above ih =>
    have before : d.Adds (d.makeDirectoriesFrom start above).1 (Along start (last :: above).reverse) :=
      ih.mono fun _ => Along.of_above
    have ensured (d : Disk) :
        d.Adds (d.ensureDirectory start above.reverse last).1 (Along start (last :: above).reverse) := by
      rw [List.reverse_cons]
      exact adds_ensureDirectory
    by_cases missing : d.makeDirectory start above.reverse last = .error .notFound
    · rw [makeDirectoriesFrom_of_missing missing]
      split
      next => exact before.trans (ensured _)
      next => exact before
    · rw [makeDirectoriesFrom_of_not_missing missing]
      exact ensured d

/-- The directories of the path and those above it are all that can appear. -/
theorem adds_makeDirectories (d : Disk) (p : Path) : d.Adds (d.makeDirectories p) (Along (d.origin p) p.names) := by
  unfold makeDirectories
  split
  next =>
    refine (adds_makeDirectoriesFrom d _ _).mono fun place along => ?_
    rw [List.reverse_reverse] at along
    exact along.of_filter
  next => exact .refl d _

end

end Disk

namespace Path

theorem names_join (p : Path) (name : String) : (p.join name).names = p.names ++ names (.ofString name) := by
  unfold join
  split
  next closed =>
    rcases Bool.or_eq_true_iff.mp closed with empty | ends
    · obtain ⟨bytes⟩ := p
      obtain rfl := List.isEmpty_iff.mp empty
      rfl
    · obtain ⟨front, whole⟩ := List.getLast?_eq_some_iff.mp (beq_iff_eq.mp ends)
      obtain ⟨bytes⟩ := p
      obtain rfl : bytes = _ := whole
      rw [List.append_assoc, List.singleton_append, names_append_slash, names_append_slash, names_nil, List.append_nil]
      rfl
  next => exact names_append_slash p.bytes (utf8 name)

theorem join_ne_nil (p : Path) {name : String} (named : utf8 name ≠ []) : (p.join name).bytes ≠ [] := by
  unfold join
  split
  next => exact List.append_ne_nil_of_right_ne_nil _ named
  next => exact List.append_ne_nil_of_right_ne_nil _ (List.cons_ne_nil _ _)

theorem bytes_join (p : Path) (name : String) : p.bytes <+: (p.join name).bytes := by
  unfold join
  split
  next => exact List.prefix_append _ _
  next => exact List.prefix_append _ _

end Path

namespace Disk

section

variable {d d' : Disk} {directory : Path} {content : Bytes}

theorem checkPath_eq_ok {p : Path} :
    checkPath p = .ok () ↔ 0 ∉ p.bytes ∧ p.bytes ≠ [] ∧ p.bytes.length < pathLimit := by
  unfold checkPath
  split
  next nul => simpa using fun without => absurd (List.contains_iff_mem.mp nul) without
  next noNul =>
    have without : 0 ∉ p.bytes := fun among => noNul (List.contains_iff_mem.mpr among)
    split
    next empty => simp [List.isEmpty_iff.mp empty]
    next some => split <;> simp_all

theorem checkPath_of_join {name : String} (nonempty : directory.bytes ≠ [])
    (h : checkPath (directory.join name) = .ok ()) : checkPath directory = .ok () := by
  obtain ⟨noNul, -, short⟩ := checkPath_eq_ok.mp h
  have isPrefix := directory.bytes_join name
  exact checkPath_eq_ok.mpr ⟨fun among => noNul (isPrefix.subset among), nonempty,
    Nat.lt_of_le_of_lt isPrefix.length_le short⟩

theorem origin_join {name : String} (nonempty : directory.bytes ≠ []) :
    d.origin (directory.join name) = d.origin directory := by
  obtain ⟨rest, whole⟩ := directory.bytes_join name
  unfold origin Path.isAbsolute
  rw [← whole, List.head?_append_of_ne_nil _ nonempty]

/-- Where a file has been written, its directory is found. -/
theorem exists?_of_write {name : String} (nonempty : directory.bytes ≠ [])
    (single : Path.names (.ofString name) = [utf8 name]) (h : d.write (directory.join name) content = .ok d') :
    d'.exists? directory = true := by
  obtain ⟨names, above, last, program, rights, named, rfl, -⟩ := write_eq_ok h
  have split := named.split
  rw [Path.names_join, single] at split
  obtain rfl := List.append_inj_left' split rfl
  have there := named.put content program rights
  have walked := there.walked
  rw [origin_join nonempty] at walked
  obtain ⟨entry, found, directory⟩ := isDirectory_iff.mp there.directory
  unfold exists? find
  rw [checkPath_of_join nonempty named.checked]
  simp [bind, Except.bind, walked, found, directory, pure, Except.pure, Except.toBool]

end

end Disk

end MacroDeck
