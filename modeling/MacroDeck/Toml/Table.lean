namespace MacroDeck.Toml

/-- How a table came into a document. Which further keys it takes depends on it. -/
inductive TableKind where
  /-- Written in braces, and complete. -/
  | inline
  /-- Named by a header. -/
  | header
  /-- Above a table that a header names, with no header of its own yet. -/
  | implied
  /-- Above a key written with dots. -/
  | dotted
deriving DecidableEq, Repr

/-- Numbers with a point, dates and times are kept as they are written. -/
inductive Item where
  | string (text : String)
  | integer (value : Int)
  | float (text : String)
  | boolean (value : Bool)
  | datetime (text : String)
  | array (items : List Item)
  /-- Tables of one name, each named by a header in double brackets. -/
  | tables (items : List Item)
  | table (kind : TableKind) (entries : List (String × Item))
deriving Repr

abbrev Entries := List (String × Item)

/-- The entries with the key's item in place of the one it has. -/
def replaceEntry (key : String) (item : Item) (entries : Entries) : Entries :=
  entries.map fun entry => if entry.1 = key then (key, item) else entry

/-- A path leads through tables; the key names an entry of the last one. -/
inductive Statement where
  | pair (path : List String) (key : String) (item : Item)
  | header (path : List String) (key : String)
  | element (path : List String) (key : String)
deriving Repr

/-- A change of the entries of a table, which may depend on the kind of the table. -/
abbrev Change := TableKind → Entries → Option Entries

/-- The change made in the table at the end of the path. Tables missing on the way are made, of the kind `made`;
those that are there must be of a kind that is `passed`. The last of several tables of one name stands for them. -/
def descend (made : TableKind) (passed : TableKind → Bool) (change : Change) : List String → Change
  | [], kind, entries => change kind entries
  | key :: path, _, entries =>
    match entries.lookup key with
    | none => (descend made passed change path made []).map fun inner => entries ++ [(key, .table made inner)]
    | some (.table kind inner) =>
      if passed kind then
        (descend made passed change path kind inner).map fun inner => replaceEntry key (.table kind inner) entries
      else none
    | some (.tables items) =>
      match items.getLast? with
      | some (.table kind inner) =>
        (descend made passed change path kind inner).map fun inner =>
          replaceEntry key (.tables (items.dropLast ++ [.table kind inner])) entries
      | _ => none
    | some _ => none

/-- The kinds of table that a dotted key goes through. -/
def TableKind.isOpen : TableKind → Bool
  | implied | dotted => true
  | inline | header => false

/-- A new entry. After a path of dotted keys its table must be one that dotted keys made. -/
def addEntry (path : List String) (key : String) (item : Item) : Change :=
  descend .dotted TableKind.isOpen
    (fun kind entries =>
      if (!path.isEmpty && kind != .dotted) || (entries.lookup key).isSome then none
      else some (entries ++ [(key, item)]))
    path

/-- A table named by a header: a new one, or one that so far was only implied. -/
def openTable (key : String) : Change := fun _ entries =>
  match entries.lookup key with
  | none => some (entries ++ [(key, .table .header [])])
  | some (.table .implied inner) => some (replaceEntry key (.table .header inner) entries)
  | some _ => none

/-- One more table of the name. -/
def addElement (key : String) : Change := fun _ entries =>
  match entries.lookup key with
  | none => some (entries ++ [(key, .tables [.table .header []])])
  | some (.tables items) => some (replaceEntry key (.tables (items ++ [.table .header []])) entries)
  | some _ => none

/-- The change made in a table that headers lead to. -/
def inTable (path : List String) (change : Change) : Change :=
  descend .implied (· != .inline) change path

/-- A document as far as it has been read, with the path of the table that the next pairs belong to. -/
structure Draft where
  root : Entries := []
  here : List String := []

def Draft.add (d : Draft) : Statement → Option Draft
  | .pair path key item => return { d with root := ← inTable d.here (addEntry path key item) .header d.root }
  | .header path key => return ⟨← inTable path (openTable key) .header d.root, path ++ [key]⟩
  | .element path key => return ⟨← inTable path (addElement key) .header d.root, path ++ [key]⟩

def entriesOf (statements : List Statement) : Option Entries :=
  (statements.foldlM Draft.add {}).map Draft.root

/-- The table written in braces with these pairs. -/
def inlineTable (pairs : List (List String × String × Item)) : Option Item :=
  (pairs.foldlM (fun entries (path, key, item) => addEntry path key item .inline entries) []).map (.table .inline)

end MacroDeck.Toml
