import MacroDeck.Opener
import MacroDeck.Toml.Document
import MacroDeck.Toml.Printer

namespace MacroDeck

structure Config where
  logLevel : String := "info"
  grammar : Grammar := {}
  policy : KeyPolicy := .strict
  naming : Naming := {}
deriving DecidableEq, Repr

namespace KeyPolicy

def name : KeyPolicy → String
  | strict => "strict"
  | skip => "skip"

def ofName? : String → Option KeyPolicy
  | "strict" => some .strict
  | "skip" => some .skip
  | _ => none

end KeyPolicy

open Toml (Item Entries Setting)

namespace Toml.Item

def text? : Item → Option String
  | string s => some s
  | _ => none

def flag? : Item → Option Bool
  | boolean b => some b
  | _ => none

def char? : Item → Option Char
  | string s =>
    match s.toList with
    | [c] => some c
    | _ => none
  | _ => none

def texts? : Item → Option (List String)
  | array items => items.mapM text?
  | _ => none

/-- The fields of a record with the given names. A table gives them by name, an array in order; a date gives none. -/
def fields? (names : List String) : Item → Option Entries
  | table _ entries => some entries
  | array items => some (names.zip items)
  | tables items => some (names.zip items)
  | datetime _ => some []
  | _ => none

def isEmptyCollection : Item → Bool
  | table _ entries => entries.isEmpty
  | array items => items.isEmpty
  | tables items => items.isEmpty
  | _ => false

/-- A policy by its name alone, or as the only key of a table, with nothing in it. -/
def policy? : Item → Option KeyPolicy
  | string s => KeyPolicy.ofName? s
  | table _ [(name, item)] => if item.isEmptyCollection then KeyPolicy.ofName? name else none
  | _ => none

end Toml.Item

/-- The field of the given name, or its default where there is none. -/
def field {α : Type} (entries : Entries) (name : String) (default : α) (decode : Item → Option α) : Option α :=
  match entries.lookup name with
  | none => some default
  | some item => decode item

def Grammar.ofEntries? (entries : Entries) : Option Grammar := do
  let d : Grammar := {}
  return {
    separator := ← field entries "separator" d.separator Item.char?
    commentPrefixes := ← field entries "comment_prefixes" d.commentPrefixes Item.texts?
    stripQuotes := ← field entries "strip_quotes" d.stripQuotes Item.flag? }

def Grammar.ofItem? (item : Item) : Option Grammar := do
  Grammar.ofEntries? (← item.fields? ["separator", "comment_prefixes", "strip_quotes"])

/-- What a document says of macros: the policy and the naming. -/
def macroFieldsOfEntries? (entries : Entries) : Option (KeyPolicy × Naming) := do
  let d : Config := {}
  let policy ← field entries "key_policy" d.policy Item.policy?
  let template ← field entries "name_template" d.naming.template Item.text?
  return (policy, ⟨template⟩)

def macroFieldsOfItem? (item : Item) : Option (KeyPolicy × Naming) := do
  macroFieldsOfEntries? (← item.fields? ["key_policy", "name_template"])

namespace Config

/-- A field that the document lacks takes its default; one that no configuration has is passed over. -/
def ofEntries? (entries : Entries) : Option Config := do
  let d : Config := {}
  let logLevel ← field entries "log_level" d.logLevel Item.text?
  let grammar ← field entries "kvp" d.grammar Grammar.ofItem?
  let (policy, naming) ← field entries "macros" (d.policy, d.naming) macroFieldsOfItem?
  return { logLevel, grammar, policy, naming }

def ofText? (text : String) : Option Config := do
  ofEntries? (← Toml.read text)

/-- The document of a configuration: the level, then a section for the grammar and one for macros. -/
def toText (c : Config) : String :=
  String.ofList <|
    Toml.writeSettings [("log_level", .text c.logLevel)] ++
    Toml.writeSection "kvp"
      [("separator", .text (String.singleton c.grammar.separator)),
        ("comment_prefixes", .texts c.grammar.commentPrefixes),
        ("strip_quotes", .flag c.grammar.stripQuotes)] ++
    Toml.writeSection "macros"
      [("key_policy", .text c.policy.name), ("name_template", .text c.naming.template)]

def opener (c : Config) : Opener :=
  ⟨c.grammar, c.policy, c.naming⟩

end Config

end MacroDeck
