import MacroDeck.Host.Recorder
import MacroDeck.Proofs.Document.Bytes
import MacroDeck.Proofs.Grammar.Line
import MacroDeck.Proofs.MacroKey.Slots
import MacroDeck.Proofs.Naming.Names
import MacroDeck.Proofs.Opening.Plan

namespace MacroDeck

/-- A slot as a macro file writes it. The stem of its key is that of a function key or, for all slots but the one
numbered zero, any other that the key can be read from. -/
structure MacroLine where
  stem : String
  index : Nat
  contents : String
  inRange : index < numberLimit
  counted : stem = "f" ∨ stem = "F" ∨ 0 < index
  begins : ∀ c ∈ stem.toList.head?, isBlank c = false ∧ c ≠ '#'
  undigited : ∀ c ∈ stem.toList.getLast?, c.isDigit = false
  unparted : '=' ∉ stem.toList
  single : '\n' ∉ stem.toList ∧ '\n' ∉ contents.toList

namespace MacroLine

/-- A function key carries the number of its slot, any other the number before. -/
def number (l : MacroLine) : Nat :=
  if l.stem = "f" ∨ l.stem = "F" then l.index else l.index - 1

def key (l : MacroLine) : List Char :=
  l.stem.toList ++ Nat.toDigits 10 l.number

def text (l : MacroLine) : List Char :=
  l.key ++ [' ', '=', ' '] ++ ('"' :: l.contents.toList ++ ['"'])

def pair (l : MacroLine) : String × String :=
  (.ofList l.key, l.contents)

def slot (naming : Naming) (l : MacroLine) : Slot :=
  ⟨l.index, naming.name l.index, l.contents⟩

variable (l : MacroLine)

theorem numbered_key : Numbered (.ofList l.key) l.stem l.number :=
  numbered_decimal l.undigited l.number

theorem decode_key : MacroKey.decode (.ofList l.key) = .ok ⟨l.stem, l.number⟩ := by
  have number_lt : l.number < numberLimit := by
    have := l.inRange
    unfold number
    split <;> omega
  rw [decode_of_numbered l.numbered_key, if_pos number_lt]

theorem countedSlot_number : countedSlot l.stem l.number = l.index := by
  unfold countedSlot number
  split
  next => rfl
  next other =>
    have positive : 0 < l.index := by
      have := l.counted
      tauto
    omega

theorem slotOfKey_key : slotOfKey (.ofList l.key) = .ok l.index := by
  rw [slotOfKey_of_numbered l.numbered_key, l.countedSlot_number, if_pos l.inRange]

theorem key_ne_nil : l.key ≠ [] := by
  simp [key, Nat.toDigits_ne_nil]

theorem head_key {c : Char} (h : c ∈ l.key.head?) : isBlank c = false ∧ c ≠ '#' := by
  rw [key, List.head?_append] at h
  cases hs : l.stem.toList.head? with
  | some d =>
    rw [hs] at h
    cases h
    exact l.begins c hs
  | none =>
    rw [hs] at h
    have digit := isDigit_of_mem_toDigits (List.mem_of_mem_head? h)
    refine ⟨isBlank_of_isDigit digit, ?_⟩
    rintro rfl
    cases digit

theorem last_key {c : Char} (h : c ∈ l.key.getLast?) : isBlank c = false := by
  rw [key, List.getLast?_append_of_ne_nil _ Nat.toDigits_ne_nil] at h
  exact isBlank_of_isDigit (isDigit_of_mem_toDigits (List.mem_of_getLast? h))

theorem not_mem_key {c : Char} (stem : c ∉ l.stem.toList) (digit : c.isDigit = false) : c ∉ l.key := by
  rw [key, List.mem_append]
  rintro (h | h)
  · exact stem h
  · simp [isDigit_of_mem_toDigits h] at digit

/-- Whatever the contents, the line gives the pair of its key and these contents. -/
theorem readLine_text (n : Nat) : ({} : Grammar).readLine n l.text = .ok (some l.pair) := by
  have trimmed : Trimmed l.key := ⟨fun _ hc => (l.head_key hc).1, fun _ hc => l.last_key hc⟩
  have read := Grammar.readLine_quoted trimmed l.key_ne_nil (l.not_mem_key l.unparted rfl)
    (fun first => (l.head_key first).2 rfl) l.contents.toList n
  rwa [String.ofList_toList] at read

theorem single_text : '\n' ∉ l.text := by
  have inKey := l.not_mem_key l.single.1 rfl
  simp [text, inKey, l.single.2]

end MacroLine

section

variable {lines : List MacroLine} {text : String}

theorem distinct_keys (distinct : (lines.map MacroLine.index).Nodup) :
    ((lines.map MacroLine.pair).map Prod.fst).Nodup := by
  rw [List.Nodup, List.pairwise_map] at distinct
  rw [List.map_map, List.Nodup, List.pairwise_map]
  refine distinct.imp fun {l l'} differ same => differ ?_
  have slots : slotOfKey (.ofList l.key) = slotOfKey (.ofList l'.key) := congrArg slotOfKey same
  rw [l.slotOfKey_key, l'.slotOfKey_key] at slots
  exact Except.ok.inj slots

theorem readBytes_macroLines (written : HasLines text (lines.map MacroLine.text)) :
    ({} : Grammar).readBytes (utf8 text) = .ok (.ofList (lines.map MacroLine.pair)) := by
  rw [Grammar.readBytes_utf8, Grammar.readText_pairs written (fun l _ n => l.readLine_text n) fun l _ => l.single_text]
  rfl

/-- The plan of the file is to install exactly the slots of its lines. -/
theorem planMacros_macroLines (policy : KeyPolicy) (naming : Naming) (path : Path) (nonempty : lines ≠ [])
    (distinct : (lines.map MacroLine.index).Nodup) (written : HasLines text (lines.map MacroLine.text)) :
    ∃ set, (∀ slot, slot ∈ set.slots ↔ ∃ l ∈ lines, slot = l.slot naming) ∧
      Opener.planMacros { policy, naming } path (.ok (utf8 text)) =
        ⟨[.loaded set.size path], .ok (.install set, set)⟩ := by
  obtain ⟨first, among⟩ := List.exists_mem_of_ne_nil lines nonempty
  have named : ∀ l ∈ lines, slotOfKey (MacroLine.pair l).1 = .ok l.index := fun l _ => l.slotOfKey_key
  obtain ⟨set, added, members⟩ := MacroSet.addPairs_distinct policy naming named distinct (m := .empty) fun _ _ => rfl
  have slots : ∀ slot, slot ∈ set.slots ↔ ∃ l ∈ lines, slot = l.slot naming := by
    intro slot
    rw [members]
    exact ⟨fun h => h.resolve_left List.not_mem_nil, .inr⟩
  have pairs : (KeyValues.ofList (lines.map MacroLine.pair)).pairs = lines.map MacroLine.pair :=
    KeyValues.ofList_pairs (distinct_keys distinct)
  have hasKey : (KeyValues.ofList (lines.map MacroLine.pair)).hasMacroKey = true := by
    rw [KeyValues.hasMacroKey, KeyValues.keys, pairs, List.map_map, List.any_eq_true]
    refine ⟨.ofList first.key, List.mem_map.mpr ⟨first, among, rfl⟩, ?_⟩
    rw [first.decode_key]
    rfl
  have filled : set.isEmpty = false := by
    have := (slots (first.slot naming)).mpr ⟨first, among, rfl⟩
    simpa [MacroSet.isEmpty] using List.ne_nil_of_mem this
  refine ⟨set, slots, ?_⟩
  simp [Opener.planMacros, Opener.readPairs, readBytes_macroLines written, hasKey, MacroSet.ofKeyValues, pairs, added,
    filled]

end

/-- Every macro set that is not empty is loaded from the file with a line for each of its slots, in whatever order and
whichever way their keys are spelled. Each slot has the name that the template gives. Any host is called once; one that
takes the set then has exactly it. -/
theorem loadMacros_macroLines (policy : KeyPolicy) (naming : Naming) (path : Path) (lines : List MacroLine)
    (nonempty : lines ≠ []) (distinct : (lines.map MacroLine.index).Nodup) {text : String}
    (written : HasLines text (lines.map MacroLine.text)) (w : World) (content : w.disk.read path = .ok (utf8 text)) :
    ∃ set : MacroSet, (∀ slot, slot ∈ set.slots ↔ ∃ l ∈ lines, slot = l.slot naming) ∧
      (∀ slot ∈ set.slots, naming.Gives slot.index slot.name) ∧
      (∀ (σ : Type) (host : Host (StateM World) σ) (s : σ),
        let opening := (Opener.loadMacros { policy, naming } path (watched host) (s, []) w).1;
        opening.host.2 = [.install set] ∧
          ((host (.install set) s w).1.result = .ok () → opening.result = .ok set)) ∧
      (∀ r : Recorder, r.refusal = none →
        let opening := (Opener.loadMacros { policy, naming } path (Recorder.host : Host (StateM World) _) r w).1;
        opening.result = .ok set ∧ opening.host = { r with store := r.store.install set }) ∧
      ∀ h : LiveHost,
        let opening := (Opener.loadMacros { policy, naming } path (LiveHost.host : Host (StateM World) _) h w).1;
        opening.result = .ok set ∧ opening.host = { h with store := h.store.install set } := by
  obtain ⟨set, slots, plan⟩ := planMacros_macroLines policy naming path nonempty distinct written
  have run {σ : Type} (host : Host (StateM World) σ) (s : σ) :
      (Opener.loadMacros { policy, naming } path host s w).1 =
        Plan.outcome ⟨[.loaded set.size path], .ok (.install set, set)⟩ set (host (.install set) s w).1 := by
    rw [Opener.loadMacros_run, content, plan, Plan.carryOut_of_ok rfl]
    rfl
  refine ⟨set, slots, fun slot among => ?_, fun σ host s => ?_, fun r willing => ?_, fun h => ?_⟩
  · obtain ⟨l, -, rfl⟩ := (slots slot).mp among
    exact naming.gives_name l.index
  · dsimp only
    rw [run]
    refine ⟨rfl, fun taken => ?_⟩
    have same : (watched host (.install set) (s, []) w).1.result = (host (.install set) s w).1.result := rfl
    rw [Plan.outcome, same, taken]
    rfl
  · dsimp only
    rw [run]
    have reply : ((Recorder.host : Host (StateM World) _) (.install set) r w).1 = r.perform (.install set) := rfl
    have performed : r.perform (.install set) =
        { events := [.installing set.size], result := .ok (), host := { r with store := r.store.install set } } := by
      simp [Recorder.perform, willing]
    rw [reply, performed]
    exact ⟨rfl, rfl⟩
  · dsimp only
    rw [run]
    exact ⟨rfl, rfl⟩

def lastSlotLine : MacroLine where
  stem := "k\" "
  index := numberLimit - 1
  contents := "\"=# \\\r "
  inRange := by decide
  counted := by decide
  begins := by
    rintro c ⟨⟩
    decide
  undigited := by
    rintro c ⟨⟩
    decide
  unparted := by decide
  single := by decide

def firstSlotLine : MacroLine where
  stem := "F"
  index := 0
  contents := ""
  inRange := by decide
  counted := by decide
  begins := by
    rintro c ⟨⟩
    decide
  undigited := by
    rintro c ⟨⟩
    decide
  unparted := by decide
  single := by decide

def stemlessLine : MacroLine where
  stem := ""
  index := 1
  contents := " f1 = \"x\""
  inRange := by decide
  counted := by decide
  begins := nofun
  undigited := nofun
  unparted := by decide
  single := by decide

/-- The last slot of all and the first, a key without a stem, and contents full of what has a meaning elsewhere. -/
def oddLines : List MacroLine :=
  [lastSlotLine, firstSlotLine, stemlessLine]

theorem loadMacros_oddLines :
    let path : Path := ⟨[0x6D]⟩
    let text := String.ofList (joinLines (oddLines.map MacroLine.text))
    let w : World := { disk := Disk.empty.put [[0x6D]] (some (.file (utf8 text) false)) }
    let set : MacroSet := .ofList [⟨0, "Macro 0", ""⟩, ⟨1, "Macro 1", " f1 = \"x\""⟩,
      ⟨18446744073709551615, "Macro 18446744073709551615", "\"=# \\\r "⟩]
    w.disk.read path = .ok (utf8 text) ∧ (∀ slot, slot ∈ set.slots ↔ ∃ l ∈ oddLines, slot = l.slot {}) ∧
      let opening := (Opener.loadMacros {} path (Recorder.host : Host (StateM World) _) {} w).1;
      opening.result = .ok set ∧ opening.host.store = ⟨some set, 1⟩ := by
  intro path text w set
  have content : w.disk.read path = .ok (utf8 text) := rfl
  have written : HasLines text (oddLines.map MacroLine.text) := hasLines_joinLines _
  obtain ⟨loaded, slots, -, -, recorded, -⟩ :=
    loadMacros_macroLines .strict {} path oddLines (by decide) (by decide) written w content
  obtain ⟨given, left⟩ := recorded {} rfl
  have result : (Opener.loadMacros {} path (Recorder.host : Host (StateM World) _) {} w).1.result = .ok set := by
    decide +kernel
  obtain rfl : loaded = set := Except.ok.inj (given.symm.trans result)
  exact ⟨content, slots, given, congrArg Recorder.store left⟩

end MacroDeck
