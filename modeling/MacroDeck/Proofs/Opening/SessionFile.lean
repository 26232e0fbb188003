import MacroDeck.Proofs.Opening.Reordering
import MacroDeck.Proofs.Text.Words

namespace MacroDeck

/-- The line of a command in quotes. -/
def commandEntry (inner : List Char) : List Char :=
  commandKey.toList ++ [' ', '=', ' '] ++ ('"' :: inner ++ ['"'])

/-- Whatever stands between the quotes, the line gives it to the command. -/
theorem readLine_commandEntry (number : Nat) (inner : List Char) :
    ({} : Grammar).readLine number (commandEntry inner) = .ok (some (commandKey, .ofList inner)) := by
  have key : commandKey.toList ≠ [] ∧ '=' ∉ commandKey.toList ∧ trim commandKey.toList = commandKey.toList := by decide
  have read := Grammar.readLine_quoted (trimmed_iff.mpr key.2.2) key.1 key.2.1 nofun inner number
  rwa [String.ofList_toList] at read

section

variable {before after : List (List Char)} {inner : List Char}

/-- The last line that gives a command is the one that counts. -/
theorem lastGives_commandEntry (last : ∀ line ∈ after, ({} : Grammar).carries commandKey line = false) :
    ({} : Grammar).LastGives (before ++ commandEntry inner :: after) commandKey (.ofList inner) := by
  have said := Grammar.said?_of_readLine (readLine_commandEntry 0 inner)
  have carried : ({} : Grammar).carries commandKey (commandEntry inner) = true := Grammar.carries_iff.mpr ⟨_, said⟩
  have none : after.filter (({} : Grammar).carries commandKey) = [] :=
    List.filter_eq_nil_iff.mpr fun line among => by simp [last line among]
  refine ⟨commandEntry inner, ?_, said⟩
  rw [List.filter_append, List.filter_cons_of_pos carried, none, List.getLast?_concat]

theorem readText_commandEntry {text : String} (single : '\n' ∉ inner)
    (sound : ∀ line ∈ before ++ after, '\n' ∉ line ∧ ¬ ({} : Grammar).Malformed line)
    (last : ∀ line ∈ after, ({} : Grammar).carries commandKey line = false)
    (written : HasLines text (before ++ commandEntry inner :: after)) :
    ∃ m, ({} : Grammar).readText text = .ok m ∧ m.get? commandKey = some (.ofList inner) := by
  have entry : '\n' ∉ commandEntry inner ∧ ¬ ({} : Grammar).Malformed (commandEntry inner) :=
    ⟨by simpa [commandEntry, commandKey] using single,
      Grammar.not_malformed_of_readLine (readLine_commandEntry 0 inner)⟩
  have all : ∀ line ∈ before ++ commandEntry inner :: after, '\n' ∉ line ∧ ¬ ({} : Grammar).Malformed line := by
    intro line among
    rcases List.mem_append.mp among with among | among
    · exact sound line (List.mem_append_left _ among)
    · rcases List.mem_cons.mp among with rfl | among
      · exact entry
      · exact sound line (List.mem_append_right _ among)
  have history := Grammar.history_ofList {} (before ++ commandEntry inner :: after)
  refine ⟨_, ?_, (history.last _ _).mpr (lastGives_commandEntry last)⟩
  rw [Grammar.readText_of_hasLines {} written fun line among => (all line among).1,
    Grammar.readLines_of_sound fun line among => (all line among).2, KeyValues.ofList_eq_insertAll]

end

/-- The pairs of all keys but one, in order. -/
structure Others (m : KeyValues) (key : String) (pairs : List (String × String)) : Prop where
  ordered : pairs.map Prod.fst = m.keys.filter (· ≠ key)
  distinct : (pairs.map Prod.fst).Nodup
  values : ∀ k value, (k, value) ∈ pairs ↔ k ≠ key ∧ m.get? k = some value

theorem others_filter (m : KeyValues) (key : String) : Others m key (m.pairs.filter (·.1 != key)) := by
  have ordered : (m.pairs.filter (·.1 != key)).map Prod.fst = m.keys.filter (· ≠ key) := by
    rw [KeyValues.keys, List.filter_map]
    congr 1
    refine List.filter_congr fun pair _ => ?_
    simp [bne, BEq.beq]
  refine ⟨ordered, ?_, fun k value => ?_⟩
  · rw [ordered]
    exact m.distinct.filter _
  · rw [List.mem_filter, KeyValues.mem_pairs_iff, and_comm, bne_iff_ne]

namespace Session

section

variable {m : KeyValues} {value : String} {session : Session}

theorem ofKeyValues?_of_absent (absent : m.get? commandKey = none) : ofKeyValues? m = none := by
  unfold ofKeyValues?
  rw [absent]
  rfl

theorem ofKeyValues?_of_get? (given : m.get? commandKey = some value) :
    ofKeyValues? m =
      if words value.toList = [] then none
      else some ⟨(words value.toList).map .ofList, m.pairs.filter (·.1 != commandKey)⟩ := by
  unfold ofKeyValues?
  rw [given, Option.bind_eq_bind, Option.bind_some]
  cases words value.toList <;> rfl

theorem ofKeyValues?_eq_none_iff :
    ofKeyValues? m = none ↔
      m.get? commandKey = none ∨ ∃ value, m.get? commandKey = some value ∧ ∀ c ∈ value.toList, isBlank c = true := by
  cases given : m.get? commandKey with
  | none => exact ⟨fun _ => .inl rfl, fun _ => ofKeyValues?_of_absent given⟩
  | some value =>
    rw [ofKeyValues?_of_get? given]
    simp [words_eq_nil_iff]

theorem spaced_of_ofKeyValues? (given : m.get? commandKey = some value) (described : ofKeyValues? m = some session) :
    Spaced (session.command.map String.toList) value.toList := by
  rw [ofKeyValues?_of_get? given] at described
  split at described
  next => cases described
  next =>
    cases described
    have same : (words value.toList).map (String.toList ∘ String.ofList) = words value.toList := by simp
    rw [List.map_map, same]
    exact spaced_words _

theorem ofKeyValues?_of_spaced {args : List String} (given : m.get? commandKey = some value) (filled : args ≠ [])
    (spaced : Spaced (args.map String.toList) value.toList) :
    ofKeyValues? m = some ⟨args, m.pairs.filter (·.1 != commandKey)⟩ := by
  have some : args.map String.toList ≠ [] := mt List.map_eq_nil_iff.mp filled
  have same : (args.map String.toList).map String.ofList = args := by simp
  rw [ofKeyValues?_of_get? given, spaced.words_eq, if_neg some, same]

end

end Session

namespace Opener

theorem planSession_of_described {o : Opener} {path : Path} {content : Except IoError Bytes} {m : KeyValues}
    {session : Session} (read : o.readPairs path content = .ok m) (described : Session.ofKeyValues? m = some session) :
    o.planSession path content =
      ⟨session.settings.map fun (key, _) => .ignoredSetting key path, .ok (.launch session.command, session)⟩ := by
  simp only [planSession, read, described]

theorem loadSession_run {σ : Type} (o : Opener) (path : Path) (host : Host (StateM World) σ) (s : σ) (w : World) :
    o.loadSession path host s w = (o.planSession path (w.disk.read path)).carryOut host s w :=
  rfl

/-- A file with its command in quotes has one session launched, with exactly the words between the quotes, whatever is
in them, and gives back the pairs of all other keys. The last command of a file counts. A map describes no session
where the command is missing or blank; otherwise the words are all that is not blank of the command's value. -/
theorem loadSession_words (policy : KeyPolicy) (naming : Naming) (path : Path) {args : List String} (filled : args ≠ [])
    {inner : List Char} (spaced : Spaced (args.map String.toList) inner) (single : '\n' ∉ inner)
    {before after : List (List Char)}
    (sound : ∀ line ∈ before ++ after, '\n' ∉ line ∧ ¬ ({} : Grammar).Malformed line)
    (last : ∀ line ∈ after, ({} : Grammar).carries commandKey line = false) {text : String}
    (written : HasLines text (before ++ commandEntry inner :: after)) {w : World}
    (content : w.disk.read path = .ok (utf8 text)) :
    (∃ (m : KeyValues) (session : Session), ({} : Grammar).readText text = .ok m ∧ session.command = args ∧
      Others m commandKey session.settings ∧
      ∀ (σ : Type) (host : Host (StateM World) σ) (s : σ),
        let opening := (loadSession { policy, naming } path (watched host) (s, []) w).1;
        opening.host.2 = [.launch args] ∧
          ((host (.launch args) s w).1.result = .ok () → opening.result = .ok session)) ∧
    ∀ m : KeyValues,
      (Session.ofKeyValues? m = none ↔
        m.get? commandKey = none ∨ ∃ value, m.get? commandKey = some value ∧ ∀ c ∈ value.toList, isBlank c = true) ∧
      ∀ value session, m.get? commandKey = some value → Session.ofKeyValues? m = some session →
        (∀ word ∈ session.command, word ≠ "" ∧ ∀ c ∈ word.toList, isBlank c = false) ∧
        session.command.flatMap String.toList = value.toList.filter (!isBlank ·) := by
  refine ⟨?_, fun m => ⟨Session.ofKeyValues?_eq_none_iff, fun value session given described => ?_⟩⟩
  · obtain ⟨m, read, given⟩ := readText_commandEntry single sound last written
    rw [← String.toList_ofList (l := inner)] at spaced
    have described := Session.ofKeyValues?_of_spaced given filled spaced
    have plan : planSession { policy, naming } path (.ok (utf8 text)) = _ :=
      planSession_of_described (readPairs_of_readText read) described
    refine ⟨m, ⟨args, m.pairs.filter (·.1 != commandKey)⟩, read, rfl, others_filter m commandKey, fun σ host s => ?_⟩
    dsimp only
    rw [loadSession_run, content, plan, Plan.carryOut_of_ok rfl]
    refine ⟨rfl, fun taken => ?_⟩
    have reply : (watched host (.launch args) (s, []) w).1.result = .ok () := taken
    exact congrArg Opening.result (Plan.outcome_of_ok reply _ _)
  · have parts := Session.spaced_of_ofKeyValues? given described
    refine ⟨fun word among => ?_, ?_⟩
    · have isWord := parts.isWord word.toList (List.mem_map_of_mem among)
      exact ⟨fun empty => isWord.filled (congrArg String.toList empty), isWord.solid⟩
    · rw [List.flatMap_def, parts.flatten_eq]

/-- Words of quotes, separators, comment marks and backslashes, after another command. -/
theorem loadSession_words_of_marks :
    let path : Path := ⟨[0x6D]⟩
    let args := ["\"ls", "a=b", "#", "\\\""]
    let inner := "\t\"ls \u3000a=b # \\\"".toList
    let before := ["command = x".toList, "# \"".toList]
    let after := ["columns = 132".toList, []]
    let text := String.ofList (joinLines (before ++ commandEntry inner :: after))
    let w : World := { disk := Disk.empty.put [[0x6D]] (some (.file (utf8 text) false)) }
    (∃ session : Session, session.command = args ∧ ("columns", "132") ∈ session.settings ∧
      let opening := (loadSession {} path (watched (Recorder.host : Host (StateM World) _)) ({}, []) w).1;
      opening.host.2 = [.launch args] ∧ opening.result = .ok session) ∧
    Session.ofKeyValues? (.ofList [("command", " \u2028")]) = none := by
  intro path args inner before after text w
  have spaced : Spaced (args.map String.toList) inner := words_eq_iff.mp (by decide)
  have written : HasLines text (before ++ commandEntry inner :: after) := hasLines_joinLines _
  have reads : ∀ line ∈ before ++ after,
      '\n' ∉ line ∧ ({} : Grammar).readLine 0 line = .ok (({} : Grammar).said? line) := by decide
  have sound : ∀ line ∈ before ++ after, '\n' ∉ line ∧ ¬ ({} : Grammar).Malformed line :=
    fun line among => ⟨(reads line among).1, Grammar.not_malformed_of_readLine (reads line among).2⟩
  have last : ∀ line ∈ after, ({} : Grammar).carries commandKey line = false := by decide
  have content : w.disk.read path = .ok (utf8 text) := rfl
  obtain ⟨⟨m, session, read, command, others, launches⟩, every⟩ :=
    loadSession_words .strict {} path (by decide : args ≠ []) spaced (by decide) sound last written content
  obtain ⟨calls, result⟩ := launches Recorder (Recorder.host : Host (StateM World) _) {}
  have map : ({} : Grammar).readText text = .ok (.ofList [("command", .ofList inner), ("columns", "132")]) := by decide
  have columns : m.get? "columns" = some "132" := by
    cases read.symm.trans map
    rfl
  refine ⟨⟨session, command, (others.values "columns" "132").mpr ⟨by decide, columns⟩, calls, result rfl⟩, ?_⟩
  exact (every (.ofList [("command", " \u2028")])).1.mpr (.inr ⟨_, rfl, List.all_eq_true.mp (by decide)⟩)

end Opener

end MacroDeck
