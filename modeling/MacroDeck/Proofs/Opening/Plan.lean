import MacroDeck.Opener
import MacroDeck.World

namespace MacroDeck

/-- What is left of an opening once its call is answered. -/
def Plan.outcome {σ α : Type} (p : Plan α) (value : α) (reply : Reply σ) : Opening σ α :=
  ⟨p.events ++ reply.events, (reply.result.map fun _ => value).mapError .host, reply.host⟩

theorem Plan.carryOut_of_error {m : Type → Type} {σ α : Type} [Monad m] {p : Plan α} {e : FileError}
    (h : p.result = .error e) (host : Host m σ) (s : σ) :
    p.carryOut host s = pure ⟨p.events, .error (.file e), s⟩ := by
  simp [Plan.carryOut, h]

theorem Plan.carryOut_of_ok {m : Type → Type} {σ α : Type} [Monad m] [LawfulMonad m] {p : Plan α} {call : HostCall}
    {value : α} (h : p.result = .ok (call, value)) (host : Host m σ) (s : σ) :
    p.carryOut host s = p.outcome value <$> host call s := by
  simp only [Plan.carryOut, h]
  rw [← bind_pure_comp]
  refine bind_congr fun reply => ?_
  unfold Plan.outcome
  cases reply.result <;> rfl

theorem Plan.outcome_of_ok {σ α : Type} {reply : Reply σ} (h : reply.result = .ok ()) (p : Plan α) (value : α) :
    p.outcome value reply = ⟨p.events ++ reply.events, .ok value, reply.host⟩ := by
  rw [outcome, h]
  rfl

theorem Plan.outcome_of_error {σ α : Type} {reply : Reply σ} {e : HostError} (h : reply.result = .error e) (p : Plan α)
    (value : α) : p.outcome value reply = ⟨p.events ++ reply.events, .error (.host e), reply.host⟩ := by
  rw [outcome, h]
  rfl

theorem Plan.map_result_eq_ok {α β : Type} {p : Plan α} {f : α → β} {call : HostCall} {value : β}
    (h : (p.map f).result = .ok (call, value)) : ∃ a, p.result = .ok (call, a) ∧ f a = value := by
  unfold Plan.map at h
  cases hp : p.result with
  | error e => simp [hp, Except.map] at h
  | ok pair =>
    obtain ⟨c, a⟩ := pair
    simp only [hp, Except.map, Except.ok.injEq, Prod.mk.injEq] at h
    obtain ⟨rfl, rfl⟩ := h
    exact ⟨a, rfl, rfl⟩

/-- The host beside the calls made of it, in order. -/
def watched {m : Type → Type} {σ : Type} [Monad m] (host : Host m σ) : Host m (σ × List HostCall) :=
  fun call (s, calls) => do
    let reply ← host call s
    return { events := reply.events, result := reply.result, host := (reply.host, calls ++ [call]) }

/-- The call by which a file has been opened. -/
def Opened.call : Opened → HostCall
  | .macros set => .install set
  | .session described => .launch described.command
  | .script path => .launch [path.display]

theorem Session.command_ne_nil {m : KeyValues} {session : Session} (h : Session.ofKeyValues? m = some session) :
    session.command ≠ [] := by
  unfold ofKeyValues? at h
  obtain ⟨value, -, h⟩ := Option.bind_eq_some_iff.mp h
  obtain ⟨_, filled, h⟩ := Option.bind_eq_some_iff.mp h
  cases h
  intro empty
  have none : words value.toList = [] := List.map_eq_nil_iff.mp empty
  rw [none] at filled
  exact nomatch filled

namespace Opener

/-- A macro file asks for its own set to be installed, and for nothing else. -/
theorem planMacros_call {o : Opener} {path : Path} {content : Except IoError Bytes} {call : HostCall} {set : MacroSet}
    (h : (o.planMacros path content).result = .ok (call, set)) : call = .install set := by
  unfold planMacros at h
  split at h
  · simp at h
  · split at h
    · split at h
      · simp at h
      · split at h
        · simp at h
        · simp only [Except.ok.injEq, Prod.mk.injEq] at h
          obtain ⟨rfl, rfl⟩ := h
          rfl
    · simp at h

theorem planSession_call {o : Opener} {path : Path} {content : Except IoError Bytes} {call : HostCall}
    {session : Session} (h : (o.planSession path content).result = .ok (call, session)) :
    call = .launch session.command := by
  unfold planSession at h
  split at h
  · simp at h
  · split at h
    · simp at h
    · simp only [Except.ok.injEq, Prod.mk.injEq] at h
      obtain ⟨rfl, rfl⟩ := h
      rfl

theorem planSession_command_ne_nil {o : Opener} {path : Path} {content : Except IoError Bytes} {call : HostCall}
    {session : Session} (h : (o.planSession path content).result = .ok (call, session)) : session.command ≠ [] := by
  unfold planSession at h
  split at h
  · simp at h
  · split at h
    · simp at h
    next described =>
      simp only [Except.ok.injEq, Prod.mk.injEq] at h
      obtain ⟨-, rfl⟩ := h
      exact Session.command_ne_nil described

theorem planScript_call {path : Path} {call : HostCall} (h : (planScript path).result = .ok (call, ())) :
    call = .launch [path.display] := by
  simpa [planScript, eq_comm] using h

/-- What opening the file comes to, whatever its kind. -/
def plan (o : Opener) (path : Path) (content : Except IoError Bytes) : Plan Opened :=
  match path.kind with
  | .macros => (o.planMacros path content).map .macros
  | .session => (o.planSession path content).map .session
  | .script => (planScript path).map fun _ => .script path

theorem plan_cases {o : Opener} {path : Path} {content : Except IoError Bytes} {call : HostCall} {opened : Opened}
    (planned : (o.plan path content).result = .ok (call, opened)) :
    (∃ set, (o.planMacros path content).result = .ok (call, set) ∧ .macros set = opened) ∨
      (∃ session, (o.planSession path content).result = .ok (call, session) ∧ .session session = opened) ∨
      (planScript path).result = .ok (call, ()) ∧ .script path = opened := by
  unfold plan at planned
  cases hk : path.kind with
  | macros =>
    rw [hk] at planned
    exact .inl (Plan.map_result_eq_ok planned)
  | session =>
    rw [hk] at planned
    exact .inr (.inl (Plan.map_result_eq_ok planned))
  | script =>
    rw [hk] at planned
    obtain ⟨_, plannedScript, same⟩ := Plan.map_result_eq_ok planned
    exact .inr (.inr ⟨plannedScript, same⟩)

theorem plan_call_eq {o : Opener} {path : Path} {content : Except IoError Bytes} {call : HostCall} {opened : Opened}
    (planned : (o.plan path content).result = .ok (call, opened)) : call = opened.call := by
  rcases plan_cases planned with ⟨set, h, rfl⟩ | ⟨session, h, rfl⟩ | ⟨h, rfl⟩
  · exact planMacros_call h
  · exact planSession_call h
  · exact planScript_call h

/-- No file asks for a session without a command. -/
theorem plan_call_ne_launch_nil {o : Opener} {path : Path} {content : Except IoError Bytes} {call : HostCall}
    {opened : Opened} (planned : (o.plan path content).result = .ok (call, opened)) : call ≠ .launch [] := by
  rcases plan_cases planned with ⟨set, h, -⟩ | ⟨session, h, -⟩ | ⟨h, -⟩
  · rw [planMacros_call h]
    exact HostCall.noConfusion
  · have filled := planSession_command_ne_nil h
    rw [planSession_call h]
    exact fun empty => filled (HostCall.launch.inj empty)
  · rw [planScript_call h]
    exact fun empty => List.cons_ne_nil _ _ (HostCall.launch.inj empty)

section

variable {σ : Type} (o : Opener) (path : Path) (host : Host (StateM World) σ) (s : σ) (w : World)

theorem loadMacros_run : o.loadMacros path host s w = (o.planMacros path (w.disk.read path)).carryOut host s w :=
  rfl

theorem open_run : o.open path host s w = (o.plan path (w.disk.read path)).carryOut host s w := by
  unfold «open» plan
  cases path.kind <;> rfl

variable {o path host s w}

theorem open_of_error {e : FileError} (h : (o.plan path (w.disk.read path)).result = .error e) :
    o.open path host s w = (⟨(o.plan path (w.disk.read path)).events, .error (.file e), s⟩, w) := by
  rw [open_run, Plan.carryOut_of_error h]
  rfl

theorem open_of_ok {call : HostCall} {opened : Opened}
    (h : (o.plan path (w.disk.read path)).result = .ok (call, opened)) :
    o.open path host s w =
      ((o.plan path (w.disk.read path)).outcome opened (host call s w).1, (host call s w).2) := by
  rw [open_run, Plan.carryOut_of_ok h]
  rfl

end

end Opener

end MacroDeck
