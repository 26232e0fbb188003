import MacroDeck.Disk
import MacroDeck.Host

namespace MacroDeck

/-- A machine as a value. -/
structure World where
  disk : Disk
  environment : String → Option Path := fun _ => none
  /-- Whether the attempt of the given number to start a program on the disk succeeds, and then the number of its
  process. -/
  starting : Nat → Disk → List String → Except IoError Nat := fun attempt disk args =>
    (disk.checkProgram args).map fun _ => attempt + 1
  attempts : Nat := 0
  printed : String := ""
  reported : String := ""
  log : List Event := []

namespace World

/-- A change of the disk, where it is possible. -/
def changeDisk (change : Disk → Except IoError Disk) : StateM World (Except IoError Unit) := fun w =>
  match change w.disk with
  | .ok disk => (.ok (), { w with disk })
  | .error e => (.error e, w)

/-- The events noted in the log are kept as such, beside the file that holds them. -/
instance : Machine (StateM World) where
  lookup name := fun w => (w.environment name, w)
  read path := fun w => (w.disk.read path, w)
  write path content := changeDisk (·.write path content)
  exists? path := fun w => (w.disk.exists? path, w)
  makeDirectories path := fun w => ((), { w with disk := w.disk.makeDirectories path })
  openLog path := do return (← changeDisk (·.ensureFile path)).toBool
  note _ event := fun w => ((), { w with log := w.log ++ [event] })
  start args := fun w => (w.starting w.attempts w.disk args, { w with attempts := w.attempts + 1 })
  print text := fun w => ((), { w with printed := w.printed ++ text })
  report text := fun w => ((), { w with reported := w.reported ++ text })

end World

end MacroDeck
