import MacroDeck.Proofs.Host.Transcript

namespace MacroDeck

namespace HostCall

/-- What a dry run is to write for the call. An empty command is refused. -/
def shown (call : HostCall) : Bytes :=
  if call = .launch [] then [] else utf8 call.describe

theorem shown_of_proper {call : HostCall} (proper : call ≠ .launch []) : call.shown = utf8 call.describe :=
  if_neg proper

theorem length_shown_pos {call : HostCall} (proper : call ≠ .launch []) : 0 < call.shown.length := by
  rw [shown_of_proper proper, List.length_pos_iff]
  intro none
  have empty : utf8 call.describe = utf8 "" := none
  exact call.describe_ne_nil (congrArg String.toList (utf8_injective empty))

end HostCall

namespace Transcript

/-- How many of so many bytes a single write takes. -/
def accepts (t : Transcript) (size : Nat) : Nat :=
  match t.limit with
  | none => size
  | some limit => min size (limit - t.written.length)

/-- The bytes written by as many writes as it takes. A write that takes none of them is an error. -/
def writeAll (t : Transcript) (bytes : Bytes) : Except IoError Unit × Transcript :=
  if bytes = [] then (.ok (), t)
  else if t.accepts bytes.length = 0 then (.error .writeZero, t)
  else
    { t with written := t.written ++ bytes.take (t.accepts bytes.length) }.writeAll
      (bytes.drop (t.accepts bytes.length))
termination_by bytes.length
decreasing_by
  have filled := List.length_pos_iff.mpr ‹¬bytes = []›
  rw [List.length_drop]
  omega

/-- The pieces written one after the other, up to the first error. -/
def writeEach (t : Transcript) : List Bytes → Except IoError Unit × Transcript
  | [] => (.ok (), t)
  | piece :: rest =>
    match t.writeAll piece with
    | (.ok (), written) => written.writeEach rest
    | (.error e, written) => (.error e, written)

/-- No more is written than there is room for. -/
def Within (t : Transcript) : Prop :=
  t.holds t.written.length = true

/-- What comes of writing so many bytes. -/
def answer (t : Transcript) (size : Nat) : Except IoError Unit :=
  if t.holds (t.written.length + size) then .ok () else .error .writeZero

section

variable {t : Transcript} {bytes : Bytes} {size : Nat}

theorem holds_iff : t.holds size = true ↔ ∀ limit, t.limit = some limit → size ≤ limit := by
  cases h : t.limit <;> simp [holds, h]

theorem write_of_holds (fits : t.holds (t.written.length + bytes.length) = true) :
    t.write bytes = { t with written := t.written ++ bytes } := by
  cases h : t.limit with
  | none => simp [write, h]
  | some limit =>
    have size := holds_iff.mp fits limit h
    simp [write, h, List.take_of_length_le, size]

theorem write_of_full (full : t.limit = some t.written.length) (bytes : Bytes) : t.write bytes = t := by
  unfold write
  rw [full]
  simp only [List.take_left, ← full]

/-- Of what follows a cut text the same is left as of what follows the whole. -/
theorem write_append (t : Transcript) (bytes later : Bytes) :
    (t.write bytes).write later = t.write (bytes ++ later) := by
  cases h : t.limit with
  | none => simp [write, h]
  | some limit =>
    have cut (whole : Bytes) : (whole.take limit ++ later).take limit = (whole ++ later).take limit := by
      rw [List.take_append, List.take_append, List.take_take, List.length_take, Nat.min_self]
      congr 1
      rw [List.take_eq_take_iff]
      omega
    simp only [write, h, cut, List.append_assoc]

theorem within_write (t : Transcript) (bytes : Bytes) : (t.write bytes).Within := by
  refine holds_iff.mpr fun limit h => ?_
  have same : t.limit = some limit := h
  simp only [write, same, List.length_take]
  omega

theorem Within.write_nil (within : t.Within) : t.write [] = t := by
  have same : t.write [] = { t with written := t.written ++ [] } := write_of_holds within
  rwa [List.append_nil] at same

theorem Within.holds_accepts (within : t.Within) (size : Nat) : t.holds (t.written.length + t.accepts size) = true := by
  refine holds_iff.mpr fun limit h => ?_
  have bound := holds_iff.mp within limit h
  simp only [accepts, h]
  omega

theorem accepts_le (t : Transcript) (size : Nat) : t.accepts size ≤ size := by
  unfold accepts
  split <;> omega

theorem Within.full_of_accepts (within : t.Within) (filled : 0 < size) (none : t.accepts size = 0) :
    t.limit = some t.written.length := by
  unfold accepts at none
  cases h : t.limit with
  | none =>
    simp only [h] at none
    omega
  | some limit =>
    have bound := holds_iff.mp within limit h
    simp only [h] at none
    congr 1
    omega

theorem holds_of_le {smaller : Nat} (le : smaller ≤ size) (fits : t.holds size = true) : t.holds smaller = true :=
  holds_iff.mpr fun limit h => le.trans (holds_iff.mp fits limit h)

theorem answer_write (fits : t.holds (t.written.length + bytes.length) = true) (size : Nat) :
    (t.write bytes).answer size = t.answer (bytes.length + size) := by
  rw [write_of_holds fits, answer, answer, List.length_append, Nat.add_assoc]
  rfl

theorem full_write (exceeds : ¬ t.holds (t.written.length + bytes.length) = true) :
    (t.write bytes).limit = some (t.write bytes).written.length := by
  cases h : t.limit with
  | none => exact absurd (holds_iff.mpr fun limit other => nomatch h.symm.trans other) exceeds
  | some limit =>
    have size : limit < t.written.length + bytes.length := by
      simpa [holds, h] using exceeds
    simp only [write, h, List.length_take, List.length_append]
    congr 1
    omega

/-- However often it takes to write the bytes, the room decides what is written and with what answer. -/
theorem Within.writeAll_eq (within : t.Within) : t.writeAll bytes = (t.answer bytes.length, t.write bytes) := by
  fun_induction writeAll t bytes with
  | case1 t =>
    have fits : t.holds (t.written.length + 0) = true := within
    rw [within.write_nil, answer, List.length_nil, if_pos fits]
  | case2 t bytes filled none =>
    have size := List.length_pos_iff.mpr filled
    have full := within.full_of_accepts size none
    have exceeds : ¬ t.holds (t.written.length + bytes.length) = true := by
      intro fits
      have := holds_iff.mp fits _ full
      omega
    rw [answer, if_neg exceeds, write_of_full full]
  | case3 t bytes filled some ih =>
    have fits : t.holds (t.written.length + (bytes.take (t.accepts bytes.length)).length) = true := by
      rw [List.length_take, Nat.min_eq_left (t.accepts_le bytes.length)]
      exact within.holds_accepts bytes.length
    rw [← write_of_holds fits] at ih ⊢
    rw [ih (within_write t _), answer_write fits, write_append, ← List.length_append, List.take_append_drop]

theorem Within.writeEach_eq (within : t.Within) (pieces : List Bytes) :
    t.writeEach pieces = (t.answer pieces.flatten.length, t.write pieces.flatten) := by
  induction pieces generalizing t with
  | nil =>
    have fits : t.holds (t.written.length + 0) = true := within
    rw [writeEach, List.flatten_nil, within.write_nil, answer, List.length_nil, if_pos fits]
  | cons piece rest ih =>
    rw [writeEach, within.writeAll_eq, List.flatten_cons, List.length_append, ← write_append]
    by_cases fits : t.holds (t.written.length + piece.length) = true
    · rw [← answer_write fits, ← ih (within_write t piece), answer, if_pos fits]
    · have exceeds : ¬ t.holds (t.written.length + (piece.length + rest.flatten.length)) = true :=
        fun all => fits (holds_of_le (by omega) all)
      rw [answer, answer, if_neg fits, if_neg exceeds, write_of_full (full_write fits)]

variable {call : HostCall}

theorem Within.perform_host (within : t.Within) (call : HostCall) : (perform call t).host = t.write call.shown := by
  unfold perform HostCall.shown
  split
  next => exact within.write_nil.symm
  next => rfl

theorem perform_result (proper : call ≠ .launch []) :
    (perform call t).result = (t.answer call.shown.length).mapError .output := by
  unfold perform answer
  rw [if_neg proper, HostCall.shown_of_proper proper]
  dsimp only
  split
  next => rfl
  next => rfl

theorem Within.performAll_eq (within : t.Within) (calls : List HostCall) :
    performAll calls t = t.write (calls.flatMap HostCall.shown) := by
  induction calls generalizing t with
  | nil => exact within.write_nil.symm
  | cons call rest ih =>
    have first := within.perform_host call
    have later := ih (within_write t call.shown)
    rw [performAll] at later
    rw [performAll, List.foldl_cons, first, later, write_append, List.flatMap_cons]

theorem performAll_append (calls later : List HostCall) (t : Transcript) :
    performAll (calls ++ later) t = performAll later (performAll calls t) :=
  List.foldl_append

end

section

variable (limit : Nat)

theorem within_empty : Within { limit := some limit } :=
  holds_iff.mpr fun _ _ => Nat.zero_le _

theorem written_limited (calls : List HostCall) :
    (performAll calls { limit := some limit }).written = (calls.flatMap HostCall.shown).take limit := by
  rw [(within_empty limit).performAll_eq]
  rfl

/-- A description is never empty, so it does not fit where those before it leave no room. -/
theorem result_limited (before : List HostCall) {call : HostCall} (proper : call ≠ .launch []) :
    (perform call (performAll before { limit := some limit })).result =
      if ((before ++ [call]).flatMap HostCall.shown).length ≤ limit then .ok () else .error (.output .writeZero) := by
  have positive := HostCall.length_shown_pos proper
  have total : ((before ++ [call]).flatMap HostCall.shown).length =
      (before.flatMap HostCall.shown).length + call.shown.length := by
    simp
  have room (size : Nat) : (performAll before { limit := some limit }).holds size = decide (size ≤ limit) := by
    rw [(within_empty limit).performAll_eq]
    rfl
  rw [perform_result proper, answer, written_limited, room, List.length_take, total]
  simp only [decide_eq_true_eq]
  by_cases fits : (before.flatMap HostCall.shown).length + call.shown.length ≤ limit
  · rw [if_pos fits, if_pos (by omega)]
    rfl
  · rw [if_neg fits, if_neg (by omega)]
    rfl

end

/-- With room for only so many bytes, the bytes written after each call are the first of those that all calls until
then are to write, as many as there is room for. An empty command is refused and writes nothing. Any other call succeeds
exactly when all bytes until then have room, and it fails as a writer does that takes no more, in whatever pieces its
bytes are written. After such a failure nothing succeeds. -/
theorem performAll_limited (limit : Nat) (before : List HostCall) (call : HostCall) :
    let t := performAll before { limit := some limit }
    let reply := perform call t
    let shown := (before ++ [call]).flatMap HostCall.shown
    reply.host.written = shown.take (min limit shown.length) ∧
    (call = .launch [] → reply.result = .error .emptyCommand ∧ reply.host = t) ∧
    (call ≠ .launch [] →
      reply.result = (if shown.length ≤ limit then .ok () else .error (.output .writeZero)) ∧
      ∀ pieces : List Bytes, pieces.flatten = utf8 call.describe →
        reply.result = (t.writeEach pieces).1.mapError .output ∧ reply.host = (t.writeEach pieces).2) ∧
    ∀ e, reply.result = .error (.output e) → ∀ between later, later ≠ .launch [] →
      (perform later (performAll between reply.host)).result = .error (.output .writeZero) := by
  intro t reply shown
  have within : t.Within := by
    show Within (performAll before { limit := some limit })
    rw [(within_empty limit).performAll_eq]
    exact within_write _ _
  have host : reply.host = performAll (before ++ [call]) { limit := some limit } := 
    (performAll_append before [call] _).symm
  refine ⟨?_, ?_, fun proper => ⟨result_limited limit before proper, fun pieces cut => ?_⟩, ?_⟩
  · rw [host, written_limited, List.take_eq_take_iff]
    change min limit shown.length = min (min limit shown.length) shown.length
    omega
  · rintro rfl
    exact ⟨rfl, rfl⟩
  · rw [within.writeEach_eq, cut, ← HostCall.shown_of_proper proper]
    exact ⟨perform_result proper, within.perform_host call⟩
  · intro e failed between later proper
    have named : call ≠ .launch [] := by
      rintro rfl
      cases failed
    have exceeds : ¬ shown.length ≤ limit := by
      intro fits
      rw [result_limited limit before named, if_pos fits] at failed
      cases failed
    have longer : shown.length ≤ ((before ++ [call] ++ between ++ [later]).flatMap HostCall.shown).length := by
      rw [List.append_assoc (before ++ [call]), List.flatMap_append, List.length_append]
      exact Nat.le_add_right ..
    have exceeds' : ¬ ((before ++ [call] ++ between ++ [later]).flatMap HostCall.shown).length ≤ limit :=
      fun fits => exceeds (longer.trans fits)
    rw [host, ← performAll_append, result_limited limit _ proper, if_neg exceeds']

/-- The room ends inside a character. Its first byte is written, and nothing after it. -/
theorem performAll_limited_in_character :
    let t := performAll [.launch []] { limit := some 17 }
    let reply := perform (.launch ["é"]) t
    t.written = [] ∧
    reply.host.written = utf8 "start session [\"" ++ [0xC3] ∧
    reply.result = .error (.output .writeZero) ∧
    (HostError.output .writeZero).message = "Failed to write host output: failed to write whole buffer" ∧
    (t.writeEach [utf8 "start session ", utf8 "[\"é\"]", utf8 "\n"]).2 = reply.host ∧
    (perform (.launch ["a"]) (performAll [.launch []] reply.host)).result = .error (.output .writeZero) := by
  intro t reply
  have refused := performAll_limited 17 [] (.launch [])
  have cut := performAll_limited 17 [.launch []] (.launch ["é"])
  have proper : HostCall.launch ["é"] ≠ .launch [] := by decide
  have proper' : HostCall.launch ["a"] ≠ .launch [] := by decide
  have exceeds : ¬ ([.launch [], .launch ["é"]].flatMap HostCall.shown).length ≤ 17 := by decide +kernel
  have result : reply.result = .error (.output .writeZero) := (cut.2.2.1 proper).1.trans (if_neg exceeds)
  have pieces := (cut.2.2.1 proper).2 [utf8 "start session ", utf8 "[\"é\"]", utf8 "\n"] (by decide +kernel)
  refine ⟨refused.1, cut.1.trans (by decide +kernel), result, rfl, pieces.2.symm, ?_⟩
  exact cut.2.2.2 .writeZero result [.launch []] (.launch ["a"]) proper'

end Transcript

end MacroDeck
