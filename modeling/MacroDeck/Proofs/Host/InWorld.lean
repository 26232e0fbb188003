import MacroDeck.Host.Recorder
import MacroDeck.World

namespace MacroDeck

abbrev Recorder.inWorld : Host (StateM World) Recorder :=
  Recorder.host

abbrev Transcript.inWorld : Host (StateM World) Transcript :=
  Transcript.host

theorem Recorder.perform_ne_emptyCommand (call : HostCall) (r : Recorder) :
    (r.perform call).result ≠ .error .emptyCommand := by
  cases hr : r.refusal with
  | some message => simp [perform, hr]
  | none => cases call <;> simp [perform, hr]

theorem Transcript.eq_launch_nil_of_emptyCommand {call : HostCall} {t : Transcript}
    (refused : (t.perform call).result = .error .emptyCommand) : call = .launch [] := by
  apply Decidable.byContradiction
  intro proper
  unfold perform at refused
  rw [if_neg proper] at refused
  dsimp only at refused
  split at refused <;> simp at refused

namespace LiveHost

abbrev inWorld : Host (StateM World) LiveHost :=
  host

/-- The machine is asked once for a session, and the host remembers the number of the process it gives. -/
theorem launch_run (program : String) (args : List String) (h : LiveHost) (w : World) :
    inWorld (.launch (program :: args)) h w =
      (match w.starting w.attempts w.disk (program :: args) with
        | .error cause => { result := .error (.spawn program cause), host := h }
        | .ok pid =>
          { events := [.started (program :: args) pid]
            result := .ok ()
            host := { h with started := h.started ++ [pid] } },
        { w with attempts := w.attempts + 1 }) := by
  have given (reply : Reply LiveHost) (w : World) : (pure reply : StateM World _) w = (reply, w) := rfl
  cases hs : w.starting w.attempts w.disk (program :: args) <;>
    simp [inWorld, host, Machine.start, bind, StateT.bind, given, hs]

theorem host_store (call : HostCall) (h : LiveHost) (w : World) :
    (inWorld call h w).1.host.store =
      match call with
      | .install set => h.store.install set
      | .launch _ => h.store := by
  match call with
  | .install set => rfl
  | .launch [] => rfl
  | .launch (program :: args) =>
    rw [launch_run]
    cases w.starting w.attempts w.disk (program :: args) <;> rfl

theorem host_disk (call : HostCall) (h : LiveHost) (w : World) :
    (inWorld call h w).2.disk = w.disk := by
  match call with
  | .install set => rfl
  | .launch [] => rfl
  | .launch (program :: args) => rw [launch_run]

/-- Only a session without a command is refused as such. -/
theorem eq_launch_nil_of_emptyCommand {call : HostCall} {h : LiveHost} {w : World}
    (refused : (inWorld call h w).1.result = .error .emptyCommand) : call = .launch [] := by
  match call with
  | .install set => exact nomatch refused
  | .launch [] => rfl
  | .launch (program :: args) =>
    rw [launch_run] at refused
    cases hs : w.starting w.attempts w.disk (program :: args) with
    | error cause => simp [hs] at refused
    | ok pid => simp [hs] at refused

end LiveHost

end MacroDeck
