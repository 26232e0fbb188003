import MacroDeck.Proofs.Host.InWorld
import MacroDeck.Proofs.Opening.Plan

namespace MacroDeck

/-- The path is one that a text spells. -/
def Path.IsText (path : Path) : Prop :=
  ∃ text, Path.ofString text = path

namespace Path

@[simp] theorem display_ofString (text : String) : (ofString text).display = text :=
  lossyText_utf8 text

theorem isText_ofString (text : String) : (ofString text).IsText :=
  ⟨text, rfl⟩

theorem ofString_display_eq_iff {path : Path} : ofString path.display = path ↔ path.IsText := by
  constructor
  · exact fun same => ⟨path.display, same⟩
  · rintro ⟨text, rfl⟩
    rw [display_ofString]

theorem eq_of_display_eq {path other : Path} (told : path.IsText) (told' : other.IsText)
    (same : path.display = other.display) : path = other :=
  calc
    path = ofString path.display := (ofString_display_eq_iff.mpr told).symm
    _ = ofString other.display := by rw [same]
    _ = other := ofString_display_eq_iff.mpr told'

/-- A path that is no text is shown as another one. -/
theorem exists_display_eq_of_not_isText {path : Path} (untold : ¬path.IsText) :
    ∃ other : Path, other.IsText ∧ other ≠ path ∧ other.display = path.display := by
  refine ⟨ofString path.display, isText_ofString _, fun same => untold ?_, display_ofString _⟩
  exact ofString_display_eq_iff.mp same

end Path

namespace Opener

theorem planScript_outcome {σ : Type} (path : Path) (reply : Reply σ) :
    (planScript path).outcome () reply =
      ⟨.startingScript path :: reply.events, reply.result.mapError .host, reply.host⟩ := by
  unfold Plan.outcome
  cases reply.result <;> rfl

theorem loadScript_run {σ : Type} (path : Path) (host : Host (StateM World) σ) (s : σ) (w : World) :
    loadScript path host s w =
      ((planScript path).outcome () (host (.launch [path.display]) s w).1, (host (.launch [path.display]) s w).2) := by
  unfold loadScript
  rw [Plan.carryOut_of_ok rfl]
  rfl

theorem open_script_run {σ : Type} {path : Path} (kind : path.kind = .script) (o : Opener)
    (host : Host (StateM World) σ) (s : σ) (w : World) :
    let named : Plan Opened := (planScript path).map fun _ => .script path
    o.open path host s w =
      (named.outcome (.script path) (host (.launch [path.display]) s w).1, (host (.launch [path.display]) s w).2) := by
  intro named
  have planned : o.plan path (w.disk.read path) = named := by
    unfold plan
    rw [kind]
  rw [open_run, planned, Plan.carryOut_of_ok rfl]
  rfl

/-- A script is one session with one argument, the path as text, and the answer to it is the result; so it is too for a
file opened as a script by its name. The argument is the path itself exactly when the path is a text, and then no other
such path has that argument. The argument of any other path is that of a text, which names another file. -/
theorem loadScript_launches_display {σ : Type} (path : Path) (host : Host (StateM World) σ) (s : σ)
    (calls : List HostCall) (w : World) :
    let call := HostCall.launch [path.display]
    let (reply, after) := host call s w
    loadScript path (watched host) (s, calls) w =
        (⟨.startingScript path :: reply.events, reply.result.mapError .host, reply.host, calls ++ [call]⟩, after) ∧
      (path.kind = .script → ∀ o : Opener, o.open path (watched host) (s, calls) w =
        (⟨.startingScript path :: reply.events, (reply.result.map fun _ => .script path).mapError .host, reply.host,
          calls ++ [call]⟩, after)) ∧
      (Path.ofString path.display = path ↔ path.IsText) ∧
      (∀ other : Path, path.IsText → other.IsText → path.display = other.display → path = other) ∧
      (¬path.IsText → ∃ other : Path, other.IsText ∧ other ≠ path ∧ other.display = path.display) := by
  refine ⟨?_, fun kind o => ?_, Path.ofString_display_eq_iff, fun other => Path.eq_of_display_eq,
    Path.exists_display_eq_of_not_isText⟩
  · rw [loadScript_run, planScript_outcome]
    rfl
  · exact open_script_run kind o (watched host) (s, calls) w

/-- Two paths that are no texts run alike, and neither as itself. -/
theorem loadScript_of_broken_paths :
    let first : Path := ⟨[0xFF]⟩
    let second : Path := ⟨[0xFE]⟩
    let run (path : Path) := (loadScript path (watched Recorder.inWorld) ({}, []) { disk := .empty }).1
    first ≠ second ∧ (run first).result = .ok () ∧ (run second).result = .ok () ∧
      (run first).host.2 = [.launch ["\uFFFD"]] ∧ (run second).host.2 = [.launch ["\uFFFD"]] ∧
      utf8 "\uFFFD" ≠ first.bytes ∧ utf8 "\uFFFD" ≠ second.bytes := by
  intro first second run
  refine ⟨by decide, rfl, rfl, by decide, by decide, by decide, by decide⟩

end Opener

end MacroDeck
