import MacroDeck.Proofs.CommandLine.Home
import MacroDeck.Proofs.Config.RoundTrip
import MacroDeck.Proofs.Disk.Made
import Mathlib.Data.Prod.Basic

namespace MacroDeck

namespace Home

/-- A way to ask for what is in the program's directory, or where it is. -/
inductive Visit where
  | load
  | configPath
  | directory
deriving DecidableEq, Repr

/-- What a visit brings back. -/
inductive Finding where
  | config (config : Config)
  | path (path : Option Path)
deriving DecidableEq, Repr

namespace Visit

def perform {m : Type → Type} [Monad m] [Machine m] : Visit → m Finding
  | load => return .config (← Config.load)
  | configPath => return .path (← Home.configPath?)
  | directory => return .path (← Home.directory?)

/-- What a visit brings back where the configuration and the two paths are these. -/
def finding (config : Config) (configPath directory : Option Path) : Visit → Finding
  | .load => .config config
  | .configPath => .path configPath
  | .directory => .path directory

end Visit

end Home

namespace World

variable (w : World)

/-- What a visit brings back on the machine. -/
def finding : Home.Visit → Home.Finding :=
  Home.Visit.finding (Config.ofFile w.settled.disk w.configPath.1) w.configPath.1 w.ownDirectory?

theorem configPath_eq : w.configPath.1 = w.ownDirectory?.map (·.join "config.toml") :=
  congrArg Prod.fst (Home.configPath?_run w)

@[simp] theorem finding_settled : w.settled.finding = w.finding := by
  rw [finding, finding, configPath_eq, configPath_eq, ownDirectory?_settled, settled_settled]

/-- The program's directory and those above it are all that can appear on the disk. -/
theorem adds_settled : w.disk.Adds w.settled.disk fun place =>
    ∃ directory, w.ownDirectory? = some directory ∧ Disk.Along (w.disk.origin directory) directory.names place := by
  unfold settled
  split
  next => exact .refl _ _
  next directory own =>
    split
    next => exact .refl _ _
    next => exact (w.disk.adds_makeDirectories directory).mono fun place along => ⟨directory, own, along⟩

theorem settled_of_none (none : w.ownDirectory? = none) : w.settled = w := by
  rw [settled, none]

theorem settled_of_exists {directory : Path} (own : w.ownDirectory? = some directory)
    (there : w.disk.exists? directory = true) : w.settled = w := by
  rw [settled, own]
  exact if_pos there

end World

namespace Home

/-- One visit leaves the machine settled, whatever it asks for. -/
theorem Visit.perform_run (visit : Visit) (w : World) :
    (visit.perform : StateM World Finding) w = (w.finding visit, w.settled) := by
  cases visit with
  | load =>
    rw [Visit.perform, bind_run rfl, Config.load_run]
    rfl
  | configPath =>
    rw [Visit.perform, bind_run rfl, configPath?_run, World.finding, World.configPath_eq]
    rfl
  | directory =>
    rw [Visit.perform, bind_run rfl, directory?_run]
    rfl

/-- After the first visit, no other changes the machine or finds anything else. -/
theorem visits_run (visits : List Visit) (w : World) :
    (visits.mapM Visit.perform : StateM World (List Finding)) w =
      (visits.map w.finding, if visits.isEmpty then w else w.settled) := by
  induction visits generalizing w with
  | nil => rfl
  | cons visit rest ih =>
    have left : (if rest.isEmpty then w.settled else w.settled.settled) = w.settled := by simp
    rw [List.mapM_cons, bind_run rfl, visit.perform_run]
    dsimp only
    rw [bind_run rfl, ih, World.finding_settled, left]
    rfl

theorem visits_run_of_settled {w : World} (settled : w.settled = w) (visits : List Visit) :
    (visits.mapM Visit.perform : StateM World (List Finding)) w = (visits.map w.finding, w) := by
  rw [visits_run, settled, ite_self]

end Home

namespace Config

variable {c : Config} {w w' : World}

theorem save_run (c : Config) (w : World) :
    (c.save : StateM World (Except ConfigError Unit)) w =
      match w.ownDirectory? with
      | none => (.error .noPath, w.settled)
      | some directory => (c.saveTo (directory.join "config.toml") : StateM World _) w.settled := by
  unfold save
  rw [bind_run rfl, Home.configPath?_run]
  cases w.ownDirectory? <;> rfl

/-- Once a configuration has been saved, the program's directory is there. The configuration is what its file holds, and
is read there unless the file was there before and is kept from the user. -/
theorem save_eq_ok (saved : (c.save : StateM World (Except ConfigError Unit)) w = (.ok (), w')) :
    ∃ path, w.configPath.1 = some path ∧ w'.settled = w' ∧ w'.ownDirectory? = w.ownDirectory? ∧
      ofFile w'.disk (some path) = if w.settled.disk.withholds path then {} else c := by
  rw [save_run] at saved
  cases own : w.ownDirectory? with
  | none =>
    rw [own] at saved
    cases (Prod.mk.inj saved).1
  | some directory =>
    rw [own] at saved
    obtain ⟨disk, written, rfl⟩ := saveTo_eq_ok saved
    have nonempty : directory.bytes ≠ [] := by
      obtain ⟨home, -, rfl⟩ := Option.map_eq_some_iff.mp own
      exact home.join_ne_nil (by decide)
    have there := Disk.exists?_of_write nonempty (by decide) written
    have known : World.ownDirectory? { w.settled with disk } = some directory :=
      (World.ownDirectory?_settled w).trans own
    have path : w.configPath.1 = some (directory.join "config.toml") := by
      rw [World.configPath_eq, own, Option.map_some]
    refine ⟨_, path, World.settled_of_exists _ known there, known, ?_⟩
    rw [ofFile, Disk.read_of_write written]
    cases w.settled.disk.withholds (directory.join "config.toml") with
    | true => rfl
    | false => rw [if_neg Bool.false_ne_true, if_neg Bool.false_ne_true, ofContent_toText]

end Config

end MacroDeck
