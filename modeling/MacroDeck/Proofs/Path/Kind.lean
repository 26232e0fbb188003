import MacroDeck.Proofs.Document.Bytes
import MacroDeck.Proofs.Path.LetterCase

namespace MacroDeck

theorem lowerAscii_ascii {b : UInt8} (h : lowerAscii b < 0x80) : b < 0x80 := by
  by_cases upper : 0x41 ≤ b ∧ b ≤ 0x5A
  · exact UInt8.lt_of_le_of_lt upper.2 (by decide)
  · rwa [lowerAscii_of_not_upper upper] at h

theorem ofExtension_eq_macros {ext : Bytes} :
    FileKind.ofExtension ext = .macros ↔ SameUpToCase ext (utf8 "macros") := by
  have plain : (utf8 "macros").map lowerAscii = utf8 "macros" := by decide
  rw [sameUpToCase_iff, plain, FileKind.ofExtension]
  grind

theorem ofExtension_eq_session {ext : Bytes} :
    FileKind.ofExtension ext = .session ↔ SameUpToCase ext (utf8 "session") := by
  have plain : (utf8 "session").map lowerAscii = utf8 "session" := by decide
  have other : utf8 "session" ≠ utf8 "macros" := by decide
  rw [sameUpToCase_iff, plain, FileKind.ofExtension]
  grind

/-- Bytes that are no text are neither extension, whose letters are ASCII in either case. -/
theorem ofExtension_of_broken {ext : Bytes} (broken : utf8Text? ext = none) : FileKind.ofExtension ext = .script := by
  have known {plain : Bytes} (ascii : plain.all (· < 0x80) = true) : ext.map lowerAscii ≠ plain := by
    rintro rfl
    obtain ⟨text, decoded⟩ := utf8Text?_ascii fun b hb =>
      lowerAscii_ascii (of_decide_eq_true (List.all_eq_true.mp ascii _ (List.mem_map_of_mem hb)))
    rw [decoded] at broken
    cases broken
  rw [FileKind.ofExtension, if_neg (known (by decide)), if_neg (known (by decide))]

namespace Path

section

variable {name stem ext rest : Bytes} {p : Path}

theorem extension?_above : extension? above = none :=
  if_pos rfl

theorem extension?_of_undotted (h : dot ∉ name) : extension? name = none := by
  have other : ∀ b ∈ name.reverse, (b != dot) = true := fun b hb =>
    bne_iff_ne.mpr fun eq => h (eq ▸ List.mem_reverse.mp hb)
  have none : name.reverse.dropWhile (· != dot) = [] := List.dropWhile_eq_nil_iff.mpr other
  rw [extension?, none]
  simp

/-- Cut at its last dot, a name has its extension unless nothing stands before that dot. -/
theorem extension?_cut (undotted : dot ∉ ext) (other : stem ++ dot :: ext ≠ above) :
    extension? (stem ++ dot :: ext) = if stem.isEmpty then none else some ext := by
  have before : ∀ b ∈ ext.reverse, (b != dot) = true := fun b hb =>
    bne_iff_ne.mpr fun eq => undotted (eq ▸ List.mem_reverse.mp hb)
  have stop : ∀ b ∈ (dot :: stem.reverse).head?, (b != dot) = false := by simp
  have turned : (stem ++ dot :: ext).reverse = ext.reverse ++ dot :: stem.reverse := by simp
  rw [extension?, if_neg other, turned, takeWhile_run before stop, dropWhile_run before stop]
  simp

theorem extension?_eq_some_iff :
    extension? name = some ext ↔ name ≠ above ∧ ∃ stem, name = stem ++ dot :: ext ∧ stem ≠ [] ∧ dot ∉ ext := by
  constructor
  · intro found
    have other : name ≠ above := by
      rintro rfl
      rw [extension?_above] at found
      cases found
    rcases none_or_first (· = dot) name.reverse with undotted | ⟨after, b, before, turned, undotted, rfl⟩
    · have none := extension?_of_undotted fun among => undotted dot (List.mem_reverse.mpr among) rfl
      rw [none] at found
      cases found
    · obtain rfl : name = before.reverse ++ dot :: after.reverse := by
        rw [← List.reverse_inj, turned]
        simp
      have none : dot ∉ after.reverse := fun among => undotted dot (List.mem_reverse.mp among) rfl
      rw [extension?_cut none other] at found
      cases empty : before.reverse.isEmpty with
      | true =>
        rw [empty] at found
        cases found
      | false =>
        rw [empty] at found
        obtain rfl : after.reverse = ext := Option.some.inj found
        exact ⟨other, before.reverse, rfl, by simpa using empty, none⟩
  · rintro ⟨other, stem, rfl, nonempty, undotted⟩
    rw [extension?_cut undotted other, if_neg (by simpa using nonempty)]

theorem EndsIn.kind (h : p.EndsIn name) :
    p.kind = match extension? name with
      | some ext => FileKind.ofExtension ext
      | none => .script := by
  unfold Path.kind
  rw [h.lastName?]
  rfl

theorem Blank.kind (h : p.Blank) : p.kind = .script := by
  unfold Path.kind
  rw [h.lastName?]
  rfl

/-- The last name has the extension, in whatever case, behind something else. -/
def Extended (p : Path) (ext : String) : Prop :=
  ∃ name, p.EndsIn name ∧ name ≠ above ∧
    ∃ stem e, name = stem ++ dot :: e ∧ stem ≠ [] ∧ SameUpToCase e (utf8 ext)

theorem undotted_of_sameUpToCase {plain : Bytes} (undotted : dot ∉ plain) (same : SameUpToCase ext plain) :
    dot ∉ ext := by
  intro among
  have lowered := List.mem_map_of_mem (f := lowerAscii) among
  rw [sameUpToCase_iff.mp same, lowerAscii_dot, List.mem_map] at lowered
  obtain ⟨b, hb, eq⟩ := lowered
  obtain rfl := (lowerAscii_eq_iff (by decide)).mp eq
  exact undotted hb

/-- One extension at a time: the bytes `plain` make the kind `known` and no other bytes but by case do. -/
theorem kind_eq_iff {known : FileKind} {plain : String} (special : known ≠ .script) (undotted : dot ∉ utf8 plain)
    (told : ∀ ext, FileKind.ofExtension ext = known ↔ SameUpToCase ext (utf8 plain)) (p : Path) :
    p.kind = known ↔ p.Extended plain := by
  constructor
  · intro is
    rcases p.endsIn_or_blank with ⟨name, ends⟩ | blank
    · rw [ends.kind] at is
      split at is
      next ext found =>
        obtain ⟨other, stem, cut, nonempty, -⟩ := extension?_eq_some_iff.mp found
        exact ⟨name, ends, other, stem, ext, cut, nonempty, (told ext).mp is⟩
      next => exact absurd is.symm special
    · exact absurd (is.symm.trans blank.kind) special
  · rintro ⟨name, ends, other, stem, ext, cut, nonempty, same⟩
    have found := extension?_eq_some_iff.mpr ⟨other, stem, cut, nonempty, undotted_of_sameUpToCase undotted same⟩
    rw [ends.kind, found]
    exact (told ext).mpr same

theorem kind_eq_macros (p : Path) : p.kind = .macros ↔ p.Extended "macros" :=
  kind_eq_iff (by decide) (by decide) (fun _ => ofExtension_eq_macros) p

theorem kind_eq_session (p : Path) : p.kind = .session ↔ p.Extended "session" :=
  kind_eq_iff (by decide) (by decide) (fun _ => ofExtension_eq_session) p

theorem kind_eq_script (p : Path) : p.kind = .script ↔ ¬ p.Extended "macros" ∧ ¬ p.Extended "session" := by
  rw [← kind_eq_macros, ← kind_eq_session]
  cases p.kind <;> decide

/-- A name with its only dot in front has no extension. -/
theorem EndsIn.kind_dotFile (h : p.EndsIn (dot :: rest)) (undotted : dot ∉ rest) : p.kind = .script := by
  have other : dot :: rest ≠ above := by
    rintro eq
    obtain rfl := (List.cons.inj eq).2
    exact undotted List.mem_cons_self
  have none : extension? ([] ++ dot :: rest) = none := extension?_cut undotted other
  rw [h.kind, ← List.nil_append (dot :: rest), none]

/-- Cut at its last dot behind something, the last name alone tells the kind, by what follows the dot. -/
theorem EndsIn.kind_cut (h : p.EndsIn (stem ++ dot :: ext)) (nonempty : stem ≠ []) (undotted : dot ∉ ext) :
    p.kind = .ofExtension ext := by
  by_cases isAbove : stem ++ dot :: ext = above
  · have none : ext = [] := by
      obtain ⟨b, rest, rfl⟩ := List.exists_cons_of_ne_nil nonempty
      have one : rest ++ dot :: ext = [dot] := (List.cons.inj isAbove).2
      rcases List.append_eq_singleton_iff.mp one with ⟨-, tail⟩ | ⟨-, tail⟩
      · exact (List.cons.inj tail).2
      · cases tail
    subst none
    rw [h.kind, isAbove, extension?_above]
    rfl
  · rw [h.kind, extension?_cut undotted isAbove, if_neg (by simpa using nonempty)]

theorem kind_append_trailing (front : Bytes) {after : Bytes} (h : Trailing after) :
    Path.kind ⟨front ++ after⟩ = Path.kind ⟨front⟩ := by
  rw [Path.kind, lastName?_append_trailing front h]
  rfl

theorem kind_append_name (front : Bytes) (h : Proper name) : Path.kind ⟨front ++ slash :: name⟩ = Path.kind ⟨name⟩ := by
  rw [Path.kind, lastName?_append_name front h, Path.kind, lastName?_name h]

/-- Behind any directories, whatever their bytes, what follows the last dot of the last name tells the kind. -/
theorem kind_behind (front : Bytes) (single : slash ∉ stem ++ dot :: ext) (nonempty : stem ≠ [])
    (undotted : dot ∉ ext) : Path.kind ⟨front ++ slash :: stem ++ dot :: ext⟩ = .ofExtension ext := by
  have other : stem ++ dot :: ext ≠ here := by
    obtain ⟨b, rest, rfl⟩ := List.exists_cons_of_ne_nil nonempty
    exact fun own => by simpa using (List.cons.inj own).2
  have proper : Proper (stem ++ dot :: ext) := ⟨by simp, single, other⟩
  have ends : EndsIn ⟨front ++ slash :: stem ++ dot :: ext⟩ (stem ++ dot :: ext) :=
    ⟨proper, front ++ [slash], [], by simp, .inr ⟨front, rfl⟩, .nil⟩
  exact ends.kind_cut nonempty undotted

end

/-- The kind of every path is told by the extension of its last name: neither directories in front, nor slashes and
names of the directory itself behind, nor the case of letters, nor bytes that are no text elsewhere matter. -/
theorem kind_of_last_extension :
    (∀ p : Path, (∃! name, p.EndsIn name) ∨ p.Blank ∧ ∀ name, ¬ p.EndsIn name) ∧
    (∀ p : Path, (p.kind = .macros ↔ p.Extended "macros") ∧ (p.kind = .session ↔ p.Extended "session") ∧
      (p.kind = .script ↔ ¬ p.Extended "macros" ∧ ¬ p.Extended "session")) ∧
    (∀ (p : Path) rest, p.EndsIn (dot :: rest) → dot ∉ rest → p.kind = .script) ∧
    (∀ (p : Path) stem ext, p.EndsIn (stem ++ dot :: ext) → dot ∉ ext → utf8Text? ext = none → p.kind = .script) ∧
    (∀ front stem ext, slash ∉ stem ++ dot :: ext → stem ≠ [] → dot ∉ ext →
      Path.kind ⟨front ++ slash :: stem ++ dot :: ext⟩ = .ofExtension ext) ∧
    (∀ front name, Proper name → Path.kind ⟨front ++ slash :: name⟩ = Path.kind ⟨name⟩) ∧
    (∀ p : Path, Path.kind ⟨p.bytes ++ [slash]⟩ = p.kind ∧ Path.kind ⟨p.bytes ++ [slash, dot]⟩ = p.kind) ∧
    ∀ p q : Path, SameUpToCase p.bytes q.bytes → q.kind = p.kind := by
  refine ⟨fun p => p.existsUnique_endsIn_or_blank, fun p => ⟨p.kind_eq_macros, p.kind_eq_session, p.kind_eq_script⟩,
    fun p rest ends => ends.kind_dotFile, ?_, fun front stem ext => kind_behind front,
    fun front name => kind_append_name front, ?_, fun p q => kind_of_sameUpToCase⟩
  · intro p stem ext ends undotted broken
    by_cases nonempty : stem = []
    · subst nonempty
      exact ends.kind_dotFile undotted
    · rw [ends.kind_cut nonempty undotted, ofExtension_of_broken broken]
  · exact fun p => ⟨kind_append_trailing p.bytes (.slash .nil), kind_append_trailing p.bytes (.here .nil)⟩

/-- `\xFF/.../x.old.MacRos/./` in either case, a name with its only dot in front, and an extension that is no text. -/
theorem kind_of_last_extension_among_odd_names :
    Path.kind ⟨0xFF :: utf8 "/.../x.old.MacRos/./"⟩ = .macros ∧
      Path.kind ⟨0xFF :: utf8 "/.../X.OLD.macros/./"⟩ = .macros ∧
      Path.kind ⟨utf8 "a.session/.macros"⟩ = .script ∧
      Path.kind ⟨utf8 "a." ++ [0xFF]⟩ = .script := by
  obtain ⟨-, told, dotFile, broken, -, -, -, cases⟩ := kind_of_last_extension
  have odd : EndsIn ⟨0xFF :: utf8 "/.../x.old.MacRos/./"⟩ (utf8 "x.old.MacRos") :=
    ⟨⟨by decide, by decide, by decide⟩, 0xFF :: utf8 "/.../", utf8 "/./", by decide,
      .inr ⟨0xFF :: utf8 "/...", by decide⟩, .here (.slash .nil)⟩
  have upper : SameUpToCase (utf8 "MacRos") (utf8 "macros") := sameUpToCase_iff.mpr (by decide)
  have isMacros : Path.kind ⟨0xFF :: utf8 "/.../x.old.MacRos/./"⟩ = .macros :=
    (told _).1.mpr ⟨utf8 "x.old.MacRos", odd, by decide, utf8 "x.old", utf8 "MacRos", by decide, by decide, upper⟩
  refine ⟨isMacros, ?_, ?_, ?_⟩
  · rw [cases ⟨0xFF :: utf8 "/.../x.old.MacRos/./"⟩ ⟨0xFF :: utf8 "/.../X.OLD.macros/./"⟩
      (sameUpToCase_iff.mpr (by decide))]
    exact isMacros
  · refine dotFile _ (utf8 "macros") ⟨⟨by decide, by decide, by decide⟩, utf8 "a.session/", [], by decide,
      .inr ⟨utf8 "a.session", by decide⟩, .nil⟩ (by decide)
  · exact broken _ (utf8 "a") [0xFF] ⟨⟨by decide, by decide, by decide⟩, [], [], by decide, .inl rfl, .nil⟩ (by decide)
      (by decide)

end Path

end MacroDeck
