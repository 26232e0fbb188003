import MacroDeck.Config.File
import MacroDeck.Proofs.Disk.Write
import MacroDeck.Proofs.Toml.Settings
import MacroDeck.World

namespace MacroDeck

open Toml

namespace Config

variable (c : Config)

/-- The settings of the three parts of a document. -/
def topSettings : List (String × Setting) :=
  [("log_level", .text c.logLevel)]

def grammarSettings : List (String × Setting) :=
  [("separator", .text (String.singleton c.grammar.separator)), ("comment_prefixes", .texts c.grammar.commentPrefixes),
    ("strip_quotes", .flag c.grammar.stripQuotes)]

def macroSettings : List (String × Setting) :=
  [("key_policy", .text c.policy.name), ("name_template", .text c.naming.template)]

theorem toText_toList : c.toText.toList =
    writeSettings c.topSettings ++
      (writeSection "kvp" c.grammarSettings ++ (writeSection "macros" c.macroSettings ++ [])) := by
  simp [toText, topSettings, grammarSettings, macroSettings]

/-- The statements of the document, in order. -/
def statements : List Statement :=
  c.topSettings.map (fun s => .pair [] s.1 s.2.item) ++
    (.header [] "kvp" :: c.grammarSettings.map (fun s => .pair [] s.1 s.2.item)) ++
    (.header [] "macros" :: c.macroSettings.map (fun s => .pair [] s.1 s.2.item))

theorem readStatements_toText (n : Nat) : readStatements (n + 11) c.toText.toList = some c.statements := by
  have top : ∀ s ∈ c.topSettings, Bare s.1 := by
    simp only [topSettings, List.forall_mem_cons]
    exact ⟨by decide, List.forall_mem_nil _⟩
  have grammar : ∀ s ∈ c.grammarSettings, Bare s.1 := by
    simp only [grammarSettings, List.forall_mem_cons]
    exact ⟨by decide, by decide, by decide, List.forall_mem_nil _⟩
  have macros : ∀ s ∈ c.macroSettings, Bare s.1 := by
    simp only [macroSettings, List.forall_mem_cons]
    exact ⟨by decide, by decide, List.forall_mem_nil _⟩
  have last : readStatements (n + 1) [] = some [] := rfl
  have first : ∀ rest, readStatements (n + 11) (writeSettings c.topSettings ++ rest) = _ :=
    readStatements_settings top (n + 10)
  have second : ∀ rest, readStatements (n + 10) (writeSection "kvp" c.grammarSettings ++ rest) = _ :=
    readStatements_section (by decide) grammar (n + 5)
  have third : ∀ rest, readStatements (n + 5) (writeSection "macros" c.macroSettings ++ rest) = _ :=
    readStatements_section (by decide) macros (n + 1)
  rw [toText_toList, first, second, third, last]
  simp [statements]

/-- The entries of a document that holds the configuration. -/
def entries : Entries :=
  c.topSettings.map (fun s => (s.1, s.2.item)) ++
    [("kvp", .table .header (c.grammarSettings.map fun s => (s.1, s.2.item))),
      ("macros", .table .header (c.macroSettings.map fun s => (s.1, s.2.item)))]

theorem entriesOf_statements : entriesOf c.statements = some c.entries := by
  rfl

theorem read_toText : Toml.read c.toText = some c.entries := by
  have begins : ∃ cs : List Char, c.toText.toList = "log_level = ".toList ++ cs := by
    rw [toText_toList]
    exact ⟨_, rfl⟩
  obtain ⟨cs, hc⟩ := begins
  obtain ⟨n, hn⟩ : ∃ n, c.toText.toList.length + 1 = n + 11 := ⟨cs.length + 2, by rw [hc]; simp⟩
  have unmarked : c.toText.toList.head? ≠ some byteOrderMark := by
    rw [hc]
    exact fun e => absurd (Option.some.inj e) (by decide)
  simp only [Toml.read, if_neg unmarked, hn, readStatements_toText, entriesOf_statements, Option.bind_eq_bind,
    Option.bind_some]

theorem mapM_text? (values : List String) : (values.map Item.string).mapM Item.text? = some values := by
  induction values with
  | nil => rfl
  | cons s more ih =>
    rw [List.map_cons, List.mapM_cons, ih]
    rfl

theorem ofName?_name (policy : KeyPolicy) : KeyPolicy.ofName? policy.name = some policy := by
  cases policy <;> rfl

theorem grammar_ofItem? (kind : TableKind) :
    Grammar.ofItem? (.table kind (c.grammarSettings.map fun s => (s.1, s.2.item))) = some c.grammar := by
  have char : Item.char? (.string (String.singleton c.grammar.separator)) = some c.grammar.separator := by
    simp [Item.char?]
  have separator (d : Char) : field (c.grammarSettings.map fun s => (s.1, s.2.item)) "separator" d Item.char? =
      some c.grammar.separator := char
  have prefixes (d : List String) :
      field (c.grammarSettings.map fun s => (s.1, s.2.item)) "comment_prefixes" d Item.texts? =
        some c.grammar.commentPrefixes := mapM_text? c.grammar.commentPrefixes
  have strip (d : Bool) : field (c.grammarSettings.map fun s => (s.1, s.2.item)) "strip_quotes" d Item.flag? =
      some c.grammar.stripQuotes := rfl
  simp only [Grammar.ofItem?, Item.fields?, Option.bind_eq_bind, Option.bind_some, Grammar.ofEntries?, separator,
    prefixes, strip]
  rfl

theorem macroFields_ofItem? (kind : TableKind) :
    macroFieldsOfItem? (.table kind (c.macroSettings.map fun s => (s.1, s.2.item))) = some (c.policy, c.naming) := by
  have policy (d : KeyPolicy) : field (c.macroSettings.map fun s => (s.1, s.2.item)) "key_policy" d Item.policy? =
      some c.policy := ofName?_name c.policy
  have template (d : String) : field (c.macroSettings.map fun s => (s.1, s.2.item)) "name_template" d Item.text? =
      some c.naming.template := rfl
  simp only [macroFieldsOfItem?, Item.fields?, Option.bind_eq_bind, Option.bind_some, macroFieldsOfEntries?, policy,
    template]
  rfl

theorem ofEntries?_entries : ofEntries? c.entries = some c := by
  have level : field c.entries "log_level" "info" Item.text? = some c.logLevel := rfl
  have grammar : field c.entries "kvp" {} Grammar.ofItem? = some c.grammar := c.grammar_ofItem? .header
  have macros (d : KeyPolicy × Naming) : field c.entries "macros" d macroFieldsOfItem? = some (c.policy, c.naming) :=
    c.macroFields_ofItem? .header
  simp only [ofEntries?, level, grammar, macros]
  rfl

theorem ofText?_toText : ofText? c.toText = some c := by
  rw [ofText?, read_toText]
  exact c.ofEntries?_entries

theorem saveTo_eq_ok {c : Config} {path : Path} {w w' : World}
    (saved : (c.saveTo path : StateM World (Except ConfigError Unit)) w = (.ok (), w')) :
    ∃ disk, w.disk.write path (utf8 c.toText) = .ok disk ∧ w' = { w with disk } := by
  change (((World.changeDisk (·.write path (utf8 c.toText)) w).1).mapError ConfigError.write,
    (World.changeDisk (·.write path (utf8 c.toText)) w).2) = _ at saved
  rw [World.changeDisk] at saved
  cases written : w.disk.write path (utf8 c.toText) with
  | error e =>
    rw [written] at saved
    cases (Prod.mk.inj saved).1
  | ok disk =>
    rw [written] at saved
    exact ⟨disk, rfl, (Prod.mk.inj saved).2.symm⟩

theorem ofContent_toText (c : Config) (path : Path) : ofContent path (.ok (utf8 c.toText)) = .ok c := by
  rw [ofContent, utf8Text?_utf8]
  dsimp only
  rw [ofText?_toText]

/-- Whatever strings it holds, a configuration that could be saved is loaded as it was, unless the file was there before
and is kept from the user. -/
theorem loadFrom_saveTo (c : Config) (path : Path) (w w' : World) (readable : w.disk.withholds path = false)
    (saved : (c.saveTo path : StateM World (Except ConfigError Unit)) w = (.ok (), w')) :
    (loadFrom path : StateM World (Except ConfigError Config)) w' = (.ok c, w') := by
  obtain ⟨disk, written, rfl⟩ := saveTo_eq_ok saved
  have load : (loadFrom path : StateM World (Except ConfigError Config)) { w with disk } =
      (ofContent path (disk.read path), { w with disk }) :=
    rfl
  rw [load, Disk.read_of_write written, readable, if_neg Bool.false_ne_true, ofContent_toText]

theorem loadFrom_saveTo_quotes :
    let c : Config :=
      { logLevel := "\"\"\"'\\"
        grammar :=
          { separator := '\n'
            commentPrefixes := ["", "''\"", "\r\n\"\"\"\"\"", "\x7f\t"]
            stripQuotes := false }
        policy := .skip
        naming := ⟨"\n'\\\"\""⟩ }
    let saved := (c.saveTo ⟨[0x6D]⟩ : StateM World (Except ConfigError Unit)) { disk := .empty }
    saved.1 = .ok () ∧ (loadFrom ⟨[0x6D]⟩ : StateM World (Except ConfigError Config)) saved.2 = (.ok c, saved.2) :=
  ⟨rfl, loadFrom_saveTo _ _ { disk := .empty } _ rfl rfl⟩

end Config

end MacroDeck
