import MacroDeck.Proofs.Config.RoundTrip

namespace MacroDeck

open Toml (Entries Item TableKind)

namespace Toml.Item

theorem text?_eq_some_iff {item : Item} {s : String} : item.text? = some s ↔ item = .string s := by
  cases item <;> simp [text?]

theorem flag?_eq_some_iff {item : Item} {b : Bool} : item.flag? = some b ↔ item = .boolean b := by
  cases item <;> simp [flag?]

theorem char?_eq_some_iff {item : Item} {c : Char} : item.char? = some c ↔ item = .string (String.singleton c) := by
  cases item with
  | string s =>
    rw [char?, string.injEq, ← String.toList_inj, String.toList_singleton]
    split
    next d single => simp [single]
    next several => exact iff_of_false (Option.some_ne_none c).symm (several c)
  | _ => simp [char?]

theorem mapM_text?_eq_some_iff {items : List Item} {texts : List String} :
    items.mapM text? = some texts ↔ items = texts.map .string := by
  constructor
  · intro read
    induction items generalizing texts with
    | nil =>
      cases read
      rfl
    | cons item more ih =>
      rw [List.mapM_cons] at read
      obtain ⟨s, first, read⟩ := Option.bind_eq_some_iff.mp read
      obtain ⟨others, later, same⟩ := Option.bind_eq_some_iff.mp read
      cases same
      rw [List.map_cons, text?_eq_some_iff.mp first, ih later]
  · rintro rfl
    exact Config.mapM_text? texts

theorem texts?_eq_some_iff {item : Item} {texts : List String} :
    item.texts? = some texts ↔ item = .array (texts.map .string) := by
  cases item with
  | array items => rw [texts?, mapM_text?_eq_some_iff, array.injEq]
  | _ => simp [texts?]

end Toml.Item

namespace KeyPolicy

theorem ofName?_eq_some_iff {name : String} {policy : KeyPolicy} : ofName? name = some policy ↔ name = policy.name := by
  constructor
  · intro known
    unfold ofName? at known
    split at known <;> cases known <;> rfl
  · rintro rfl
    exact Config.ofName?_name policy

theorem name_injective : Function.Injective name := by
  intro policy other same
  cases policy <;> cases other <;> first | rfl | exact absurd same (by decide)

end KeyPolicy

theorem Toml.Item.policy?_eq_some_iff {item : Item} (notTable : ∀ kind entries, item ≠ .table kind entries)
    {policy : KeyPolicy} : item.policy? = some policy ↔ item = .string policy.name := by
  cases item with
  | string s => rw [policy?, KeyPolicy.ofName?_eq_some_iff, string.injEq]
  | table kind entries => exact absurd rfl (notTable kind entries)
  | _ => simp [policy?]

/-- Where the items that decode are the encodings, a field has the document's value, or else the default. -/
theorem field_eq_some_iff {α : Type} {decode : Item → Option α} {encode : α → Item} {entries : Entries} {name : String}
    (exact : ∀ item ∈ entries.lookup name, ∀ {v}, decode item = some v ↔ item = encode v)
    (injective : Function.Injective encode) {default v : α} :
    field entries name default decode = some v ↔ encode v = (entries.lookup name).getD (encode default) := by
  unfold field
  cases found : entries.lookup name with
  | none =>
    rw [Option.getD_none, injective.eq_iff, Option.some.injEq]
    exact eq_comm
  | some item =>
    rw [Option.getD_some]
    exact (exact item found).trans eq_comm

namespace Config

/-- The entries of a table in a document. There are none where the table is missing. -/
def within (entries : Entries) (name : String) : Entries :=
  match entries.lookup name with
  | some (.table _ inner) => inner
  | _ => []

/-- What a document can set. -/
inductive Field where
  | logLevel
  | separator
  | commentPrefixes
  | stripQuotes
  | keyPolicy
  | nameTemplate
deriving DecidableEq, Repr

/-- What the document has for the field. -/
def Field.item? (entries : Entries) : Field → Option Item
  | logLevel => entries.lookup "log_level"
  | separator => (within entries "kvp").lookup "separator"
  | commentPrefixes => (within entries "kvp").lookup "comment_prefixes"
  | stripQuotes => (within entries "kvp").lookup "strip_quotes"
  | keyPolicy => (within entries "macros").lookup "key_policy"
  | nameTemplate => (within entries "macros").lookup "name_template"

/-- The items that a field can have. -/
def Field.Shaped : Field → Item → Prop
  | logLevel, item => ∃ s, item = .string s
  | separator, item => ∃ c, item = .string (String.singleton c)
  | commentPrefixes, item => ∃ texts : List String, item = .array (texts.map .string)
  | stripQuotes, item => ∃ b, item = .boolean b
  | keyPolicy, item => item = .string "strict" ∨ item = .string "skip"
  | nameTemplate, item => ∃ s, item = .string s

/-- The value of a field, as a document has it. -/
def item (c : Config) : Field → Item
  | .logLevel => .string c.logLevel
  | .separator => .string (String.singleton c.grammar.separator)
  | .commentPrefixes => .array (c.grammar.commentPrefixes.map .string)
  | .stripQuotes => .boolean c.grammar.stripQuotes
  | .keyPolicy => .string c.policy.name
  | .nameTemplate => .string c.naming.template

theorem shaped_item (c : Config) (f : Field) : f.Shaped (c.item f) := by
  cases f with
  | keyPolicy =>
    cases h : c.policy <;> simp [Field.Shaped, item, h, KeyPolicy.name]
  | _ => exact ⟨_, rfl⟩

/-- There are tables where tables belong, and none for the policy. -/
structure Sectioned (entries : Entries) : Prop where
  kvp : ∀ item ∈ entries.lookup "kvp", ∃ kind inner, item = .table kind inner
  macros : ∀ item ∈ entries.lookup "macros", ∃ kind inner, item = .table kind inner
  keyPolicy : ∀ item ∈ Field.keyPolicy.item? entries, ∀ kind inner, item ≠ .table kind inner

/-- The configuration has the document's value in each field that the document has, and the default in the others. -/
def Overlays (c : Config) (entries : Entries) : Prop :=
  ∀ f : Field, c.item f = (f.item? entries).getD (({} : Config).item f)

section

variable {entries : Entries}

theorem Sectioned.field_kvp (sectioned : Sectioned entries) :
    field entries "kvp" {} Grammar.ofItem? = Grammar.ofEntries? (within entries "kvp") := by
  unfold field within
  cases found : entries.lookup "kvp" with
  | none => rfl
  | some item =>
    obtain ⟨kind, inner, rfl⟩ := sectioned.kvp item found
    rfl

theorem Sectioned.field_macros (sectioned : Sectioned entries) :
    field entries "macros" (.strict, {}) macroFieldsOfItem? = macroFieldsOfEntries? (within entries "macros") := by
  unfold field within
  cases found : entries.lookup "macros" with
  | none => rfl
  | some item =>
    obtain ⟨kind, inner, rfl⟩ := sectioned.macros item found
    rfl

theorem grammar_ofEntries?_eq_some_iff {g : Grammar} :
    Grammar.ofEntries? entries = some g ↔
      field entries "separator" '=' Item.char? = some g.separator ∧
      field entries "comment_prefixes" ["#"] Item.texts? = some g.commentPrefixes ∧
      field entries "strip_quotes" true Item.flag? = some g.stripQuotes := by
  constructor
  · intro read
    obtain ⟨_, separator, read⟩ := Option.bind_eq_some_iff.mp read
    obtain ⟨_, prefixes, read⟩ := Option.bind_eq_some_iff.mp read
    obtain ⟨_, strip, read⟩ := Option.bind_eq_some_iff.mp read
    cases read
    exact ⟨separator, prefixes, strip⟩
  · rintro ⟨separator, prefixes, strip⟩
    exact Option.bind_eq_some_iff.mpr ⟨_, separator, Option.bind_eq_some_iff.mpr ⟨_, prefixes,
      Option.bind_eq_some_iff.mpr ⟨_, strip, rfl⟩⟩⟩

theorem macroFieldsOfEntries?_eq_some_iff {policy : KeyPolicy} {naming : Naming} :
    macroFieldsOfEntries? entries = some (policy, naming) ↔
      field entries "key_policy" .strict Item.policy? = some policy ∧
      field entries "name_template" ({} : Naming).template Item.text? = some naming.template := by
  constructor
  · intro read
    obtain ⟨_, decoded, read⟩ := Option.bind_eq_some_iff.mp read
    obtain ⟨_, template, read⟩ := Option.bind_eq_some_iff.mp read
    cases read
    exact ⟨decoded, template⟩
  · rintro ⟨decoded, template⟩
    exact Option.bind_eq_some_iff.mpr ⟨_, decoded, Option.bind_eq_some_iff.mpr ⟨_, template, rfl⟩⟩

theorem ofEntries?_eq_some_iff {c : Config} :
    ofEntries? entries = some c ↔
      field entries "log_level" "info" Item.text? = some c.logLevel ∧
      field entries "kvp" {} Grammar.ofItem? = some c.grammar ∧
      field entries "macros" (.strict, {}) macroFieldsOfItem? = some (c.policy, c.naming) := by
  constructor
  · intro read
    obtain ⟨_, level, read⟩ := Option.bind_eq_some_iff.mp read
    obtain ⟨_, grammar, read⟩ := Option.bind_eq_some_iff.mp read
    obtain ⟨_, macros, read⟩ := Option.bind_eq_some_iff.mp read
    cases read
    exact ⟨level, grammar, macros⟩
  · rintro ⟨level, grammar, macros⟩
    exact Option.bind_eq_some_iff.mpr ⟨_, level, Option.bind_eq_some_iff.mpr ⟨_, grammar,
      Option.bind_eq_some_iff.mpr ⟨_, macros, rfl⟩⟩⟩

theorem Sectioned.ofEntries?_eq_some_iff (sectioned : Sectioned entries) {c : Config} :
    ofEntries? entries = some c ↔ c.Overlays entries := by
  have single : Function.Injective fun c => Item.string (String.singleton c) := by
    intro c d same
    simpa using congrArg String.toList (Item.string.inj same)
  have many : Function.Injective fun texts : List String => Item.array (texts.map .string) :=
    fun _ _ same => (List.map_inj_right fun _ _ => Item.string.inj).mp (Item.array.inj same)
  have named : Function.Injective fun policy : KeyPolicy => Item.string policy.name :=
    fun _ _ same => KeyPolicy.name_injective (Item.string.inj same)
  rw [Config.ofEntries?_eq_some_iff, sectioned.field_kvp, sectioned.field_macros, grammar_ofEntries?_eq_some_iff,
    macroFieldsOfEntries?_eq_some_iff,
    field_eq_some_iff (fun _ _ => Item.text?_eq_some_iff) (fun _ _ => Item.string.inj),
    field_eq_some_iff (fun _ _ => Item.char?_eq_some_iff) single,
    field_eq_some_iff (fun _ _ => Item.texts?_eq_some_iff) many,
    field_eq_some_iff (fun _ _ => Item.flag?_eq_some_iff) (fun _ _ => Item.boolean.inj),
    field_eq_some_iff (fun item found => Item.policy?_eq_some_iff (sectioned.keyPolicy item found)) named,
    field_eq_some_iff (fun _ _ => Item.text?_eq_some_iff) (fun _ _ => Item.string.inj)]
  constructor
  · rintro ⟨level, ⟨separator, prefixes, strip⟩, policy, template⟩ f
    cases f with
    | logLevel => exact level
    | separator => exact separator
    | commentPrefixes => exact prefixes
    | stripQuotes => exact strip
    | keyPolicy => exact policy
    | nameTemplate => exact template
  · intro overlays
    exact ⟨overlays .logLevel, ⟨overlays .separator, overlays .commentPrefixes, overlays .stripQuotes⟩,
      overlays .keyPolicy, overlays .nameTemplate⟩

theorem shaped_getD {f : Field} (shaped : ∀ item ∈ f.item? entries, f.Shaped item) :
    f.Shaped ((f.item? entries).getD (({} : Config).item f)) := by
  cases found : f.item? entries with
  | none => exact shaped_item {} f
  | some item => exact shaped item found

/-- Some configuration has the value in each field, if the value has the field's shape. -/
theorem exists_item {value : Field → Item} (shaped : ∀ f : Field, f.Shaped (value f)) :
    ∃ c : Config, ∀ f, c.item f = value f := by
  obtain ⟨logLevel, level⟩ := shaped .logLevel
  obtain ⟨separator, separates⟩ := shaped .separator
  obtain ⟨commentPrefixes, prefixes⟩ := shaped .commentPrefixes
  obtain ⟨stripQuotes, strip⟩ := shaped .stripQuotes
  obtain ⟨policy, named⟩ : ∃ policy : KeyPolicy, value .keyPolicy = .string policy.name :=
    (shaped .keyPolicy).elim (⟨.strict, ·⟩) (⟨.skip, ·⟩)
  obtain ⟨template, templated⟩ := shaped .nameTemplate
  refine ⟨⟨logLevel, ⟨separator, commentPrefixes, stripQuotes⟩, policy, ⟨template⟩⟩, fun f => ?_⟩
  cases f with
  | logLevel => exact level.symm
  | separator => exact separates.symm
  | commentPrefixes => exact prefixes.symm
  | stripQuotes => exact strip.symm
  | keyPolicy => exact named.symm
  | nameTemplate => exact templated.symm

theorem Overlays.shaped {c : Config} (overlays : c.Overlays entries) (f : Field) {item : Item}
    (found : f.item? entries = some item) : f.Shaped item := by
  have value : c.item f = item := (overlays f).trans (by rw [found, Option.getD_some])
  exact value ▸ shaped_item c f

theorem ofContent_utf8 {text : String} (parsed : Toml.read text = some entries) (path : Path) :
    ofContent path (.ok (utf8 text)) = (ofEntries? entries).elim (.error (.parse path)) .ok := by
  have read : ofText? text = ofEntries? entries := by
    unfold ofText?
    rw [parsed]
    rfl
  rw [ofContent, utf8Text?_utf8]
  cases h : ofEntries? entries <;> simp [read, h]

end

/-- A document is loaded exactly if all that it has of the six fields has the right shape. The configuration then has
the document's value in each field that the document has, and the default in each other field. So two documents with
the same in these fields load the same, whatever else they hold and in whatever order. -/
theorem loadFrom_overlays {text : String} {entries : Entries} (parsed : Toml.read text = some entries)
    (sectioned : Sectioned entries) {path : Path} {w : World} (content : w.disk.read path = .ok (utf8 text)) :
    let load : StateM World (Except ConfigError Config) := loadFrom path
    (∀ c : Config, load w = (.ok c, w) ↔ c.Overlays entries) ∧
    ((∃ c : Config, load w = (.ok c, w)) ↔ ∀ f : Field, ∀ item ∈ f.item? entries, f.Shaped item) ∧
    ((¬ ∀ f : Field, ∀ item ∈ f.item? entries, f.Shaped item) → load w = (.error (.parse path), w)) ∧
    ∀ (other : String) (entries' : Entries) (w' : World), Toml.read other = some entries' → Sectioned entries' →
      w'.disk.read path = .ok (utf8 other) → (∀ f : Field, f.item? entries' = f.item? entries) →
        (load w').1 = (load w).1 := by
  intro load
  have run (v : World) : load v = (ofContent path (v.disk.read path), v) := rfl
  have result : ofContent path (.ok (utf8 text)) = (ofEntries? entries).elim (.error (.parse path)) .ok :=
    ofContent_utf8 parsed path
  have loads (c : Config) : load w = (.ok c, w) ↔ c.Overlays entries := by
    rw [run, content, result, ← sectioned.ofEntries?_eq_some_iff]
    cases ofEntries? entries with
    | none => exact ⟨nofun, nofun⟩
    | some other =>
      constructor
      · intro loaded
        cases (Prod.mk.inj loaded).1
        rfl
      · rintro ⟨⟩
        rfl
  have shapes : (∃ c : Config, load w = (.ok c, w)) ↔ ∀ f : Field, ∀ item ∈ f.item? entries, f.Shaped item := by
    constructor
    · rintro ⟨c, loaded⟩ f item found
      exact ((loads c).mp loaded).shaped f found
    · intro shaped
      obtain ⟨c, overlays⟩ := exists_item fun f => shaped_getD (shaped f)
      exact ⟨c, (loads c).mpr overlays⟩
  refine ⟨loads, shapes, fun misshaped => ?_, fun other entries' w' parsed' sectioned' content' agree => ?_⟩
  · rw [run, content, result]
    cases read : ofEntries? entries with
    | none => rfl
    | some c =>
      have loaded : load w = (.ok c, w) := (loads c).mpr (sectioned.ofEntries?_eq_some_iff.mp read)
      exact absurd (shapes.mp ⟨c, loaded⟩) misshaped
  · have same : ofEntries? entries' = ofEntries? entries := by
      refine Option.ext fun c => ?_
      rw [sectioned'.ofEntries?_eq_some_iff, sectioned.ofEntries?_eq_some_iff]
      simp only [Overlays, agree]
    rw [run, run, content, content', result, ofContent_utf8 parsed' path, same]

/-- One field of each table, among others that do not belong there. -/
theorem loadFrom_overlays_among_others :
    let path : Path := ⟨[0x6D]⟩
    let holding (text : String) : World := { disk := Disk.empty.put [[0x6D]] (some (.file (utf8 text) false)) }
    let load : StateM World (Except ConfigError Config) := loadFrom path
    let c : Config := { grammar := { separator := ':' }, policy := .skip }
    let text := "title = 7\n[macros]\nkey_policy = \"skip\"\n[kvp]\nseparator = \":\"\nother = [1, \"x\"]\n"
    let other := "kvp = \x7bseparator = ':'\x7d\n[macros]\nstrip_quotes = 1\nkey_policy = 'skip'\n[log]\nlog_level = 1\n"
    let misshaped := "[kvp]\nseparator = \"::\"\n"
    load (holding text) = (.ok c, holding text) ∧ (load (holding other)).1 = .ok c ∧
      load (holding misshaped) = (.error (.parse path), holding misshaped) := by
  intro path holding load c text other misshaped
  have content (text : String) : (holding text).disk.read path = .ok (utf8 text) := rfl
  have parsed : Toml.read text = some
      [("title", .integer 7), ("macros", .table .header [("key_policy", .string "skip")]),
        ("kvp", .table .header [("separator", .string ":"), ("other", .array [.integer 1, .string "x"])])] := by
    unfold text
    rfl
  have parsed' : Toml.read other = some
      [("kvp", .table .inline [("separator", .string ":")]),
        ("macros", .table .header [("strip_quotes", .integer 1), ("key_policy", .string "skip")]),
        ("log", .table .header [("log_level", .integer 1)])] := by
    unfold other
    rfl
  have misparsed : Toml.read misshaped = some [("kvp", .table .header [("separator", .string "::")])] := by
    unfold misshaped
    rfl
  obtain ⟨loads, -, -, alike⟩ := loadFrom_overlays parsed
    ⟨fun _ found => ⟨_, _, (Option.some.inj found).symm⟩, fun _ found => ⟨_, _, (Option.some.inj found).symm⟩,
      fun _ found _ _ table => nomatch (Option.some.inj found).trans table⟩ (content text)
  obtain ⟨-, -, fails, -⟩ := loadFrom_overlays misparsed
    ⟨fun _ found => ⟨_, _, (Option.some.inj found).symm⟩, nofun, nofun⟩ (content misshaped)
  have loaded : load (holding text) = (.ok c, holding text) := (loads c).mpr (by intro f; cases f <;> rfl)
  refine ⟨loaded, ?_, fails fun shaped => ?_⟩
  · have same := alike other _ (holding other) parsed'
      ⟨fun _ found => ⟨_, _, (Option.some.inj found).symm⟩, fun _ found => ⟨_, _, (Option.some.inj found).symm⟩,
        fun _ found _ _ table => nomatch (Option.some.inj found).trans table⟩ (content other)
      (by intro f; cases f <;> rfl)
    exact same.trans (congrArg Prod.fst loaded)
  · obtain ⟨d, single⟩ := shaped .separator (.string "::") rfl
    have lengths := congrArg String.length (Item.string.inj single)
    rw [String.length_singleton] at lengths
    cases lengths

end Config

end MacroDeck
