import MacroDeck.Proofs.Document.Decoding
import MacroDeck.Proofs.Document.Layout
import MacroDeck.Proofs.Opening.MacroOutcome

namespace MacroDeck

/-- The key stands in the map before the other one. -/
def KeyValues.Before (m : KeyValues) (key later : String) : Prop :=
  [key, later].Sublist m.keys

/-- The second map has the pairs of the first in another order. Keys that name one slot stand as they have stood. -/
structure Reordered (m m' : KeyValues) : Prop where
  pairs : m.pairs.Perm m'.pairs
  rivals : ∀ key later slot, slotOfKey key = .ok slot → slotOfKey later = .ok slot →
    m.Before key later → m'.Before key later

section

variable {m m' : KeyValues} {key later : String}

theorem idxOf_lt_of_sublist {keys : List String} (distinct : keys.Nodup) (h : [key, later].Sublist keys) :
    keys.idxOf key < keys.idxOf later := by
  have inOrder : keys.Pairwise fun a b => keys.idxOf a < keys.idxOf b := by
    refine List.pairwise_iff_getElem.mpr fun i j hi hj below => ?_
    rwa [distinct.idxOf_getElem i hi, distinct.idxOf_getElem j hj]
  exact List.pairwise_iff_forall_sublist.mp inOrder h

theorem KeyValues.Before.asymm (h : m.Before key later) : ¬ m.Before later key := by
  intro h'
  have forth := idxOf_lt_of_sublist m.distinct h
  have back := idxOf_lt_of_sublist m.distinct h'
  omega

theorem Reordered.mem_keys_iff (h : Reordered m m') : key ∈ m.keys ↔ key ∈ m'.keys :=
  (h.pairs.map Prod.fst).mem_iff

theorem Reordered.filter_eq (h : Reordered m m') (slot : Nat) :
    (m.pairs.filter fun pair => slotOfKey pair.1 = .ok slot) =
      m'.pairs.filter fun pair => slotOfKey pair.1 = .ok slot := by
  have ordered : (m.pairs.filter fun pair => slotOfKey pair.1 = .ok slot).Pairwise fun a b => m'.Before a.1 b.1 := by
    refine List.pairwise_iff_forall_sublist.mpr fun {a b} both => ?_
    have names (pair : String × String) (among : pair ∈ [a, b]) : slotOfKey pair.1 = .ok slot := by
      simpa using (List.mem_filter.mp (both.subset among)).2
    have before : m.Before a.1 b.1 := (both.trans List.filter_sublist).map Prod.fst
    exact h.rivals _ _ slot (names a (by simp)) (names b (by simp)) before
  have ordered' : (m'.pairs.filter fun pair => slotOfKey pair.1 = .ok slot).Pairwise fun a b => m'.Before a.1 b.1 :=
    List.pairwise_iff_forall_sublist.mpr fun both => (both.trans List.filter_sublist).map Prod.fst
  exact (h.pairs.filter _).eq_of_pairwise (fun a b _ _ before after => absurd after before.asymm) ordered ordered'

end

namespace MacroSet

section

variable {policy : KeyPolicy} {naming : Naming} {m m' : KeyValues} {set set' : MacroSet}

/-- Whether a set is built is a matter of which keys there are. -/
theorem exists_ofKeyValues_iff (policy : KeyPolicy) (naming : Naming) (m : KeyValues) :
    (∃ set, (ofKeyValues policy naming m).2 = .ok set) ↔ (policy = .strict → ∀ key ∈ m.keys, ¬ Slotless key) := by
  cases policy with
  | strict =>
    constructor
    · rintro ⟨set, built⟩ -
      exact named_of_ofKeyValues_strict built
    · exact fun named => exists_ofKeyValues_of_named .strict naming (named rfl)
  | skip => exact iff_of_true (exists_addPairs_skip _ _ _) nofun

theorem eq_of_reordered (h : Reordered m m') (built : (ofKeyValues policy naming m).2 = .ok set)
    (built' : (ofKeyValues policy naming m').2 = .ok set') : set = set' :=
  ext_get? fun index => by rw [get?_of_ofKeyValues built, get?_of_ofKeyValues built', h.filter_eq]

theorem ofKeyValues_eq_ok_iff_of_reordered (h : Reordered m m') :
    (ofKeyValues policy naming m).2 = .ok set ↔ (ofKeyValues policy naming m').2 = .ok set := by
  have both : (∃ set, (ofKeyValues policy naming m).2 = .ok set) ↔
      ∃ set, (ofKeyValues policy naming m').2 = .ok set := by
    simp only [exists_ofKeyValues_iff, h.mem_keys_iff]
  constructor
  · intro built
    obtain ⟨set', built'⟩ := both.mp ⟨set, built⟩
    rw [built', eq_of_reordered h built built']
  · intro built'
    obtain ⟨set, built⟩ := both.mpr ⟨_, built'⟩
    rw [built, eq_of_reordered h built built']

end

end MacroSet

namespace Grammar

/-- The keys that the lines of a text carry, in the order of the lines. -/
def keysOf (g : Grammar) (text : String) : List String :=
  ((linesOf text.toList).filterMap g.said?).map Prod.fst

/-- The second text has the lines of the first in another order, whatever blanks are around them. No key is on two of
them, and none names a slot that another one names. -/
structure Shuffled (g : Grammar) (text text' : String) : Prop where
  lines : ((linesOf text.toList).map trim).Perm ((linesOf text'.toList).map trim)
  distinct : (g.keysOf text).Nodup
  apart : ∀ key ∈ g.keysOf text, ∀ other ∈ g.keysOf text, ∀ slot,
    slotOfKey key = .ok slot → slotOfKey other = .ok slot → key = other

section

variable {g : Grammar} {text text' : String} {m : KeyValues}

theorem said?_trim (g : Grammar) (line : List Char) : g.said? (trim line) = g.said? line := by
  rw [said?, said?, readLine_trim]

theorem filterMap_said?_trim (g : Grammar) (lines : List (List Char)) :
    (lines.map trim).filterMap g.said? = lines.filterMap g.said? := by
  rw [List.filterMap_map]
  exact List.filterMap_congr fun line _ => g.said?_trim line

theorem malformed_trim_iff {line : List Char} : g.Malformed (trim line) ↔ g.Malformed line := by
  rw [Malformed, Malformed, trim_trim]

theorem Shuffled.pairs (h : g.Shuffled text text') :
    ((linesOf text.toList).filterMap g.said?).Perm ((linesOf text'.toList).filterMap g.said?) := by
  rw [← filterMap_said?_trim, ← filterMap_said?_trim g (linesOf text'.toList)]
  exact h.lines.filterMap _

theorem Shuffled.symm (h : g.Shuffled text text') : g.Shuffled text' text where
  lines := h.lines.symm
  distinct := (h.pairs.map Prod.fst).nodup_iff.mp h.distinct
  apart key hk other ho :=
    h.apart key ((h.pairs.map Prod.fst).mem_iff.mpr hk) other ((h.pairs.map Prod.fst).mem_iff.mpr ho)

theorem Shuffled.readText (h : g.Shuffled text text') (read : g.readText text = .ok m) :
    ∃ m', g.readText text' = .ok m' ∧ Reordered m m' := by
  obtain ⟨sound, rfl⟩ := readText_eq_ok_iff.mp read
  refine ⟨_, readText_eq_ok_iff.mpr ⟨fun line hl => ?_, rfl⟩, ?_, ?_⟩
  · have among : trim line ∈ (linesOf text.toList).map trim := h.lines.mem_iff.mpr (List.mem_map_of_mem hl)
    obtain ⟨line', hl', same⟩ := List.mem_map.mp among
    rw [← malformed_trim_iff, ← same, malformed_trim_iff]
    exact sound line' hl'
  · rw [KeyValues.ofList_pairs h.distinct, KeyValues.ofList_pairs h.symm.distinct]
    exact h.pairs
  · intro key later slot hk hl before
    have keys : KeyValues.keys (.ofList ((linesOf text.toList).filterMap g.said?)) = g.keysOf text :=
      congrArg (List.map Prod.fst) (KeyValues.ofList_pairs h.distinct)
    have among := before.subset
    rw [keys] at among
    obtain rfl := h.apart key (among (by simp)) later (among (by simp)) slot hk hl
    exact absurd before before.asymm

end

end Grammar

namespace Opener

section

variable {o : Opener} {path : Path} {text text' : String} {m : KeyValues} {call : HostCall} {set : MacroSet}

theorem readPairs_text (o : Opener) (path : Path) (text : String) :
    o.readPairs path (.ok (utf8 text)) = (o.grammar.readText text).mapError .line := by
  rw [readPairs_ok, Grammar.readBytes_utf8]
  cases o.grammar.readText text <;> rfl

theorem readPairs_of_readText (read : o.grammar.readText text = .ok m) :
    o.readPairs path (.ok (utf8 text)) = .ok m := by
  rw [readPairs_text, read]
  rfl

theorem planMacros_of_shuffled (h : o.grammar.Shuffled text text')
    (planned : (o.planMacros path (.ok (utf8 text))).result = .ok (call, set)) :
    (o.planMacros path (.ok (utf8 text'))).result = .ok (call, set) := by
  cases read : o.grammar.readText text with
  | error e =>
    have failed : o.readPairs path (.ok (utf8 text)) = .error (.line e) := by
      rw [readPairs_text, read]
      rfl
    simp [planMacros, failed] at planned
  | ok m =>
    obtain ⟨m', read', reordered⟩ := h.readText read
    obtain rfl := planMacros_call planned
    obtain ⟨⟨key, among, fits⟩, built, filled⟩ := (planMacros_eq_ok_iff (readPairs_of_readText read) set).mp planned
    have fitting' : m'.Fitting := ⟨key, reordered.mem_keys_iff.mp among, fits⟩
    refine (planMacros_eq_ok_iff (readPairs_of_readText read') set).mpr ⟨fitting', ?_, filled⟩
    exact (MacroSet.ofKeyValues_eq_ok_iff_of_reordered reordered).mp built

theorem toOption_planMacros_of_shuffled (h : o.grammar.Shuffled text text') :
    (o.planMacros path (.ok (utf8 text'))).result.toOption = (o.planMacros path (.ok (utf8 text))).result.toOption := by
  cases planned : (o.planMacros path (.ok (utf8 text))).result with
  | ok pair => rw [planMacros_of_shuffled h planned]
  | error e =>
    cases planned' : (o.planMacros path (.ok (utf8 text'))).result with
    | error e' => rfl
    | ok pair =>
      rw [planMacros_of_shuffled h.symm planned'] at planned
      cases planned

end

end Opener

/-- Maps of the same pairs, of which those of one slot stand in the same order, come to one set or to none, whatever the
policy. Where the keys of a file name slots of their own, its lines may be put in any order: what is installed, if
anything, stays the same. -/
theorem reordering_keeps_set :
    (∀ policy naming m m', Reordered m m' →
      (∃ set, (MacroSet.ofKeyValues policy naming m).2 = .ok set ∧
        (MacroSet.ofKeyValues policy naming m').2 = .ok set) ∨
      (∃ e, (MacroSet.ofKeyValues policy naming m).2 = .error e) ∧
        ∃ e, (MacroSet.ofKeyValues policy naming m').2 = .error e) ∧
    ∀ (o : Opener) path text text', o.grammar.Shuffled text text' →
      (o.planMacros path (.ok (utf8 text'))).result.toOption =
        (o.planMacros path (.ok (utf8 text))).result.toOption ∧
      ∀ (σ : Type) (host : Host (StateM World) σ) (s : σ) (w w' : World), w.disk.read path = .ok (utf8 text) →
        w'.disk.read path = .ok (utf8 text') →
          (o.loadMacros path (watched host) (s, []) w').1.host.2 =
            (o.loadMacros path (watched host) (s, []) w).1.host.2 := by
  refine ⟨fun policy naming m m' h => ?_, fun o path text text' h => ⟨?_, fun σ host s w w' content content' => ?_⟩⟩
  · have same (set : MacroSet) : (MacroSet.ofKeyValues policy naming m).2 = .ok set ↔ _ :=
      MacroSet.ofKeyValues_eq_ok_iff_of_reordered h
    cases built : (MacroSet.ofKeyValues policy naming m).2 with
    | ok set => exact .inl ⟨set, rfl, (same set).mp built⟩
    | error e =>
      refine .inr ⟨⟨e, rfl⟩, ?_⟩
      cases built' : (MacroSet.ofKeyValues policy naming m').2 with
      | error e' => exact ⟨e', rfl⟩
      | ok set =>
        rw [(same set).mpr built'] at built
        cases built
  · exact Opener.toOption_planMacros_of_shuffled h
  · rw [Opener.loadMacros_calls, Opener.loadMacros_calls, content, content', Opener.toOption_planMacros_of_shuffled h]

/-- Two keys of one slot stay in order around a key without a slot, and the lines of a file change their blanks. -/
theorem reordering_keeps_set_of_rivals :
    let m := KeyValues.ofList [("f1", "a"), ("x", "b"), ("m0", "c")]
    let m' := KeyValues.ofList [("f1", "a"), ("m0", "c"), ("x", "b")]
    let path : Path := ⟨[0x6D]⟩
    let text := "f2 = a\n# c\nF0 = b"
    let text' := " # c\r\nF0 = b\r\n f2 = a"
    let w : World := { disk := Disk.empty.put [[0x6D]] (some (.file (utf8 text) false)) }
    let w' : World := { disk := Disk.empty.put [[0x6D]] (some (.file (utf8 text') false)) }
    Reordered m m' ∧ Grammar.Shuffled {} text text' ∧
      w.disk.read path = .ok (utf8 text) ∧ w'.disk.read path = .ok (utf8 text') ∧
      (∃ set, (MacroSet.ofKeyValues .skip {} m).2 = .ok set ∧ (MacroSet.ofKeyValues .skip {} m').2 = .ok set) ∧
      (Opener.loadMacros {} path (watched Recorder.inWorld) ({}, []) w').1.host.2 =
        (Opener.loadMacros {} path (watched Recorder.inWorld) ({}, []) w).1.host.2 := by
  intro m m' path text text' w w'
  have rivals : ∀ key ∈ m.keys, ∀ later ∈ m.keys, slotOfKey key = slotOfKey later →
      [key, later].Sublist m.keys → [key, later].Sublist m'.keys := by decide
  have reordered : Reordered m m' := by
    refine ⟨by decide, fun key later slot hk hl before => ?_⟩
    have among := before.subset
    exact rivals key (among (by simp)) later (among (by simp)) (hk.trans hl.symm) before
  have shuffled : Grammar.Shuffled {} text text' := by
    have apart : ∀ key ∈ Grammar.keysOf {} text, ∀ other ∈ Grammar.keysOf {} text,
        slotOfKey key = slotOfKey other → key = other := by decide
    exact ⟨by decide, by decide, fun key hk other ho slot names names' =>
      apart key hk other ho (names.trans names'.symm)⟩
  have content : w.disk.read path = .ok (utf8 text) := rfl
  have content' : w'.disk.read path = .ok (utf8 text') := rfl
  obtain ⟨sets, files⟩ := reordering_keeps_set
  obtain ⟨-, calls⟩ := files {} path text text' shuffled
  refine ⟨reordered, shuffled, content, content', (sets .skip {} m m' reordered).resolve_right ?_,
    calls _ Recorder.inWorld {} w w' content content'⟩
  rintro ⟨⟨e, failed⟩, -⟩
  obtain ⟨set, built⟩ : ∃ set, (MacroSet.ofKeyValues .skip {} m).2 = .ok set := MacroSet.exists_addPairs_skip _ _ _
  rw [built] at failed
  cases failed

end MacroDeck
