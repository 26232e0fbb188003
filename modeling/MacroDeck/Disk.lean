import MacroDeck.Path

namespace MacroDeck

/-- The names that lead from the root to a file or directory. -/
abbrev Place := List Bytes

/-- What is open to the user: to read a file or directory, and to write to a file or make something in a directory. -/
structure Rights where
  read : Bool := true
  write : Bool := true
deriving DecidableEq, Repr

/-- What is in a place. The user can follow paths through a directory only where it is passable, and run a file only
where it is a program. -/
inductive Entry where
  | directory (passable : Bool := true) (rights : Rights := {})
  | file (content : Bytes) (program : Bool) (rights : Rights := {})
deriving DecidableEq, Repr

namespace Entry

def isDirectory : Entry → Bool
  | .directory .. => true
  | .file .. => false

def isPassable : Entry → Bool
  | .directory passable _ => passable
  | .file .. => false

def rights : Entry → Rights
  | .directory _ rights => rights
  | .file _ _ rights => rights

/-- The entry with another content, if it is a file. -/
def withContent (content : Bytes) : Entry → Entry
  | .directory passable rights => .directory passable rights
  | .file _ program rights => .file content program rights

end Entry

/-- The files and directories of a machine. Relative paths start at the current directory. What the user makes is open to
the user. -/
structure Disk where
  entry? : Place → Option Entry
  current : Place := []

namespace Disk

/-- The disk with nothing on it but the root. -/
def empty : Disk where
  entry? place := if place.isEmpty then some .directory else none

def put (d : Disk) (place : Place) (entry : Option Entry) : Disk :=
  { d with entry? := fun p => if p = place then entry else d.entry? p }

/-- The disk with another content in the file at the place, if there is one. -/
def withContent (d : Disk) (place : Place) (content : Bytes) : Disk :=
  { d with entry? := fun p => if p = place then (d.entry? p).map (.withContent content) else d.entry? p }

/-- What is in the place. There is a directory at the root of every disk. -/
def look (d : Disk) (place : Place) : Option Entry :=
  if place.isEmpty && !(d.entry? place).any Entry.isDirectory then some .directory else d.entry? place

def isDirectory (d : Disk) (place : Place) : Bool :=
  (d.look place).any Entry.isDirectory

def isPassable (d : Disk) (place : Place) : Bool :=
  (d.look place).any Entry.isPassable

def isWritable (d : Disk) (place : Place) : Bool :=
  (d.look place).any (·.rights.write)

/-- The longest name that a directory can hold, and the bound that a path's length must not reach. -/
def nameLimit : Nat := 255

def pathLimit : Nat := 4096

/-- A path that no disk follows is refused before the disk is consulted. -/
def checkPath (p : Path) : Except IoError Unit :=
  if p.bytes.contains 0 then .error .nulInPath
  else if p.bytes.isEmpty then .error .notFound
  else if p.bytes.length < pathLimit then .ok ()
  else .error .nameTooLong

/-- One name on, from a directory. -/
def enter (d : Disk) (place : Place) (name : Bytes) : Except IoError Place :=
  if !d.isPassable place then .error .permissionDenied
  else if name = Path.here then .ok place
  else if name = Path.above then .ok place.dropLast
  else if name.length > nameLimit then .error .nameTooLong
  else if (d.entry? (place ++ [name])).isSome then .ok (place ++ [name])
  else .error .notFound

def walk (d : Disk) : Place → List Bytes → Except IoError Place
  | place, [] => .ok place
  | place, name :: rest =>
    if d.isDirectory place then do d.walk (← d.enter place name) rest else .error .notADirectory

def origin (d : Disk) (p : Path) : Place :=
  if p.isAbsolute then [] else d.current

/-- What is at the path. A slash at its end asks for a directory. -/
def find (d : Disk) (p : Path) : Except IoError Entry := do
  checkPath p
  match d.look (← d.walk (d.origin p) p.names) with
  | none => throw .notFound
  | some entry => if p.endsInSlash && !entry.isDirectory then throw .notADirectory else return entry

def exists? (d : Disk) (p : Path) : Bool :=
  (d.find p).toBool

def read (d : Disk) (p : Path) : Except IoError Bytes := do
  let entry ← d.find p
  if entry.rights.read then
    match entry with
    | .directory .. => throw .isADirectory
    | .file content _ _ => return content
  else throw .permissionDenied

/-- The directory that holds or would hold what the path names last, and that name. -/
def parent (d : Disk) (p : Path) : Except IoError (Place × Option Bytes) := do
  checkPath p
  match p.names.getLast? with
  | none => return ([], none)
  | some name =>
    let place ← d.walk (d.origin p) p.names.dropLast
    if !d.isDirectory place then throw .notADirectory
    else if d.isPassable place then return (place, some name)
    else throw .permissionDenied

/-- Where a file of the path is or would be. -/
def target (d : Disk) (p : Path) : Except IoError Place := do
  match ← d.parent p with
  | (_, none) => throw .isADirectory
  | (place, some name) =>
    if p.endsInSlash || name == Path.here || name == Path.above then throw .isADirectory
    else if name.length > nameLimit then throw .nameTooLong
    else if d.isDirectory (place ++ [name]) then throw .isADirectory
    else return place ++ [name]

/-- A file to write to, made empty if there is none. -/
def ensureFile (d : Disk) (p : Path) : Except IoError Disk := do
  let place ← d.target p
  match d.entry? place with
  | some entry => if entry.rights.write then return d else throw .permissionDenied
  | none => if d.isWritable place.dropLast then return d.put place (some (.file [] false)) else throw .permissionDenied

def write (d : Disk) (p : Path) (content : Bytes) : Except IoError Disk := do
  let place ← d.target p
  return (← d.ensureFile p).withContent place content

/-- A new directory, which the names lead to from a place: the last name is new in the directory that the others
lead to. -/
def makeDirectory (d : Disk) (start : Place) (names : List Bytes) (last : Bytes) : Except IoError Disk := do
  let place ← d.walk start names
  if d.isDirectory place then
    match d.enter place last with
    | .ok _ => throw .alreadyExists
    | .error .notFound =>
      if d.isWritable place then return d.put (place ++ [last]) (some .directory) else throw .permissionDenied
    | .error e => throw e
  else throw .notADirectory

def leadsToDirectory (d : Disk) (start : Place) (names : List Bytes) : Bool :=
  match d.walk start names with
  | .ok place => d.isDirectory place
  | .error _ => false

/-- A new directory where there may be one already, and whether there is one in the end. -/
def ensureDirectory (d : Disk) (start : Place) (names : List Bytes) (last : Bytes) : Disk × Bool :=
  match d.makeDirectory start names last with
  | .ok made => (made, true)
  | .error _ => (d, d.leadsToDirectory start (names ++ [last]))

/-- The directory that the names, last name first, lead to, made after those above it that are missing. -/
def makeDirectoriesFrom (d : Disk) (start : Place) : List Bytes → Disk × Bool
  | [] => (d, true)
  | last :: names =>
    match d.makeDirectory start names.reverse last with
    | .error .notFound =>
      match d.makeDirectoriesFrom start names with
      | (made, true) => made.ensureDirectory start names.reverse last
      | (made, false) => (made, false)
    | _ => d.ensureDirectory start names.reverse last

/-- The directory at the path and those above it, as far as they can be made. -/
def makeDirectories (d : Disk) (p : Path) : Disk :=
  match checkPath p with
  | .ok () => (d.makeDirectoriesFrom (d.origin p) (p.names.filter (· != Path.here)).reverse).1
  | .error _ => d

/-- The place that a path names, whatever is on the disk. -/
def placeOf (d : Disk) (p : Path) : Place :=
  p.names.foldl
    (fun place name =>
      if name = Path.here then place else if name = Path.above then place.dropLast else place ++ [name])
    (d.origin p)

/-- The entry put at a path, with directories above it where there are none. -/
def plant (d : Disk) (p : Path) (entry : Entry) : Disk :=
  let place := d.placeOf p
  let covered := (List.range place.length).foldl
    (fun d n => if (d.entry? (place.take n)).isSome then d else d.put (place.take n) (some .directory)) d
  covered.put place (some entry)

/-- The disk without what is at the path and below it. -/
def remove (d : Disk) (p : Path) : Disk :=
  { d with entry? := fun place => if (d.placeOf p).isPrefixOf place then none else d.entry? place }

/-- Whether a program runs when it is named so. A name without a slash is looked for in no directory. -/
def checkProgram (d : Disk) (args : List String) : Except IoError Unit :=
  if args.any (·.contains '\x00') then .error .nulInArgument
  else match args with
    | [] => .error .notFound
    | name :: _ =>
      if name.contains '/' then do
        match ← d.find (.ofString name) with
        | .file _ true _ => return
        | _ => throw .permissionDenied
      else .error .notFound

end Disk

end MacroDeck
