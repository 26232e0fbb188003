import MacroDeck.Host.Recorder
import MacroDeck.Proofs.Document.Decoding
import MacroDeck.Proofs.Text.Quoted
import Mathlib.Algebra.Ring.Nat

namespace MacroDeck

theorem toList_pushn (s : String) (c : Char) (n : Nat) : (s.pushn c n).toList = s.toList ++ List.replicate n c := by
  rw [String.pushn_eq_repeat_push]
  induction n with
  | zero => simp [Nat.repeat]
  | succ n ih => simp [Nat.repeat, ih, List.replicate_succ']

theorem alignLeft_toList (width : Nat) (s : String) :
    (alignLeft width s).toList = s.toList ++ List.replicate (width - s.length) ' ' :=
  toList_pushn s ' ' _

theorem alignRight_toList (width : Nat) (s : String) :
    (alignRight width s).toList = List.replicate (width - s.length) ' ' ++ s.toList := by
  simp [alignRight, toList_pushn]

/-- Blanks before a number are no part of it. -/
theorem delimited_aligned (width : Nat) : Delimited fun n : Nat => (alignRight width (toString n)).toList ++ [' '] := by
  have blanks (k : Nat) : ∀ c ∈ List.replicate k ' ', (c == ' ') = true := by
    intro c hc
    simp [(List.mem_replicate.mp hc).2]
  have stops (n : Nat) (x : List Char) : ∀ c ∈ (Nat.toDigits 10 n ++ [' '] ++ x).head?, (c == ' ') = false := by
    intro c hc
    rw [List.append_assoc, List.head?_append_of_ne_nil _ Nat.toDigits_ne_nil] at hc
    have notBlank := char_not_mem_decimal (c := ' ') rfl n
    have ne : c ≠ ' ' := fun e => notBlank (e ▸ List.mem_of_mem_head? hc)
    simpa using ne
  intro n m x y same
  simp only [alignRight_toList, decimal_toList, List.append_assoc] at same
  simp only [← List.append_assoc (Nat.toDigits 10 _)] at same
  obtain ⟨-, number⟩ := run_append_inj (blanks _) (blanks _) (stops n x) (stops m y) same
  exact delimited_decimal number

namespace HostCall

theorem describeSlot_toList (s : Slot) :
    (describeSlot s).toList = "  ".toList ++ ((alignRight 3 (toString s.index)).toList ++ ([' '] ++
      ((quoted s.name).toList ++ (" = ".toList ++ ((quoted s.contents).toList ++ ['\n']))))) := by
  have parts : describeSlot s =
      "  " ++ alignRight 3 (toString s.index) ++ " " ++ quoted s.name ++ " = " ++ quoted s.contents ++ "\n" := rfl
  have ends : " ".toList = [' '] ∧ "\n".toList = ['\n'] := by decide
  rw [parts, ← ends.1, ← ends.2]
  simp only [String.toList_append, List.append_assoc]

theorem delimited_describeSlot : Delimited fun s => (describeSlot s).toList := by
  intro s t x y same
  simp only [describeSlot_toList, List.append_assoc] at same
  have numbered := List.append_cancel_left same
  simp only [← List.append_assoc (String.toList (alignRight 3 _)) [' ']] at numbered
  obtain ⟨index, named⟩ := delimited_aligned 3 numbered
  obtain ⟨name, valued⟩ := delimited_quoted named
  obtain ⟨contents, ended⟩ := delimited_quoted (List.append_cancel_left valued)
  refine ⟨?_, List.append_cancel_left ended⟩
  cases s
  cases t
  simp_all

theorem describe_install_toList (set : MacroSet) :
    (install set).describe.toList = "install macro set (".toList ++ (Nat.toDigits 10 set.size ++ ([' '] ++
      ("macros)\n".toList ++ set.slots.flatMap fun s => (describeSlot s).toList))) := by
  have parts : (install set).describe =
      "install macro set (" ++ toString set.size ++ " macros)\n" ++ String.join (set.slots.map describeSlot) := rfl
  have blank : " macros)\n".toList = [' '] ++ "macros)\n".toList := by decide
  rw [parts, String.toList_append, String.toList_append, String.toList_append, String.toList_join, decimal_toList, blank,
    List.flatMap_map]
  simp only [List.append_assoc]

theorem describe_launch_toList (args : List String) :
    (launch args).describe.toList = "start session ".toList ++ ((quotedList args).toList ++ ['\n']) := by
  have parts : (launch args).describe = "start session " ++ quotedList args ++ "\n" := rfl
  have newline : "\n".toList = ['\n'] := by decide
  rw [parts, String.toList_append, String.toList_append, newline, List.append_assoc]

/-- The count of the slots tells where an installed set ends. -/
theorem delimited_describe : Delimited fun call => (describe call).toList := by
  have install_ne_launch (set : MacroSet) (args : List String) (x y : List Char) :
      (install set).describe.toList ++ x ≠ (launch args).describe.toList ++ y := by
    have begins : "install macro set (".toList = 'i' :: "nstall macro set (".toList ∧
        "start session ".toList = 's' :: "tart session ".toList := by decide
    intro same
    rw [describe_install_toList, describe_launch_toList, begins.1, begins.2] at same
    have first := (List.cons.inj same).1
    exact absurd first (by decide)
  intro call other x y same
  cases call with
  | install set =>
    cases other with
    | launch args => exact absurd same (install_ne_launch set args x y)
    | install set' =>
      simp only [describe_install_toList, List.append_assoc] at same
      have counted := List.append_cancel_left same
      simp only [← List.append_assoc (Nat.toDigits 10 _) [' ']] at counted
      obtain ⟨size, slots⟩ := delimited_decimal counted
      obtain ⟨eq, rest⟩ := delimited_describeSlot.list_counted size (List.append_cancel_left slots)
      refine ⟨?_, rest⟩
      cases set
      cases set'
      simp_all
  | launch args =>
    cases other with
    | install set => exact absurd same.symm (install_ne_launch set args y x)
    | launch args' =>
      simp only [describe_launch_toList, List.append_assoc] at same
      obtain ⟨rfl, ended⟩ := delimited_quotedList (List.append_cancel_left same)
      exact ⟨rfl, List.append_cancel_left ended⟩

theorem describe_ne_nil (call : HostCall) : call.describe.toList ≠ [] := by
  cases call with
  | install set => simp [describe_install_toList]
  | launch args => simp [describe_launch_toList]

/-- The lines of a call: one for a session, and one for a set with one more for each of its slots. -/
def lineCount : HostCall → Nat
  | install set => 1 + set.size
  | launch _ => 1

theorem count_newline_describeSlot (s : Slot) : (describeSlot s).toList.count '\n' = 1 := by
  have number : '\n' ∉ Nat.toDigits 10 s.index := char_not_mem_decimal rfl s.index
  have aligned : '\n' ∉ (alignRight 3 (toString s.index)).toList := by
    rw [alignRight_toList, decimal_toList]
    simp [number]
  have literals : "  ".toList.count '\n' = 0 ∧ " = ".toList.count '\n' = 0 := by decide
  simp only [describeSlot_toList, List.count_append, List.count_eq_zero.mpr aligned, literals.1, literals.2,
    List.count_eq_zero.mpr (newline_not_mem_quoted _)]
  rfl

theorem count_newline_slots (slots : List Slot) :
    (slots.flatMap fun s => (describeSlot s).toList).count '\n' = slots.length := by
  induction slots with
  | nil => rfl
  | cons s slots ih =>
    rw [List.flatMap_cons, List.count_append, ih, count_newline_describeSlot, List.length_cons]
    omega

theorem count_newline_describe (call : HostCall) : call.describe.toList.count '\n' = call.lineCount := by
  cases call with
  | install set =>
    have size : '\n' ∉ Nat.toDigits 10 set.size := char_not_mem_decimal rfl set.size
    have literals : "install macro set (".toList.count '\n' = 0 ∧ [' '].count '\n' = 0 ∧
        "macros)\n".toList.count '\n' = 1 := by decide
    simp only [describe_install_toList, List.count_append, List.count_eq_zero.mpr size, literals, count_newline_slots]
    rw [lineCount, MacroSet.size]
    omega
  | launch args =>
    have literal : "start session ".toList.count '\n' = 0 := by decide
    simp only [describe_launch_toList, List.count_append, literal, List.count_eq_zero.mpr (newline_not_mem_quotedList _)]
    rfl

end HostCall

/-- A text that shows calls one after the other tells which they are. -/
theorem HostCall.join_describe_injective {calls others : List HostCall}
    (same : String.join (calls.map describe) = String.join (others.map describe)) : calls = others := by
  have texts := congrArg String.toList same
  rw [String.toList_join, String.toList_join, List.flatMap_map, List.flatMap_map] at texts
  exact delimited_describe.list_injective describe_ne_nil texts

theorem utf8_injective {s t : String} (h : utf8 s = utf8 t) : s = t := by
  have read := congrArg utf8Text? h
  simpa using read

/-- The bytes of a text have as many line breaks as the text. -/
theorem count_newlineByte_utf8 (s : String) : (utf8 s).count Grammar.newlineByte = s.toList.count '\n' := by
  have chars (cs : List Char) : (utf8 (.ofList cs)).count Grammar.newlineByte = cs.count '\n' := by
    induction cs with
    | nil => rfl
    | cons c cs ih =>
      rw [utf8_ofList_cons, List.count_append, ih, List.count_cons]
      by_cases h : c = '\n'
      · subst h
        have one : (String.utf8EncodeChar '\n').count Grammar.newlineByte = 1 := rfl
        rw [one]
        simp
        omega
      · rw [List.count_eq_zero.mpr (Grammar.newlineByte_not_mem_encode h)]
        simp [h]
  rw [← chars, String.ofList_toList]

namespace Transcript

/-- The calls made one after the other. -/
def performAll (calls : List HostCall) (t : Transcript) : Transcript :=
  calls.foldl (fun t call => (perform call t).host) t

theorem perform_unlimited {call : HostCall} (proper : call ≠ .launch []) {t : Transcript} (unlimited : t.limit = none) :
    perform call t = { result := .ok (), host := { t with written := t.written ++ utf8 call.describe } } := by
  simp [perform, proper, holds, write, unlimited]

theorem written_performAll {calls : List HostCall} (proper : ∀ call ∈ calls, call ≠ .launch []) {t : Transcript}
    (unlimited : t.limit = none) :
    (performAll calls t).written = t.written ++ utf8 (String.join (calls.map HostCall.describe)) := by
  induction calls generalizing t with
  | nil =>
    have empty : utf8 "" = [] := rfl
    simp [performAll, empty]
  | cons call rest ih =>
    have first := perform_unlimited (proper call List.mem_cons_self) unlimited
    have later := ih (fun c hc => proper c (List.mem_cons_of_mem _ hc))
      (t := { t with written := t.written ++ utf8 call.describe }) unlimited
    rw [performAll, List.foldl_cons, first]
    rw [performAll] at later
    rw [later, List.map_cons, String.join_cons, utf8_append, List.append_assoc]

/-- The bytes that a dry run writes without a limit tell its calls, each with all its names, contents and arguments,
and no text in a call begins a line. -/
theorem performAll_written_injective {calls : List HostCall} (proper : ∀ call ∈ calls, call ≠ .launch []) :
    (∀ others : List HostCall, (∀ call ∈ others, call ≠ .launch []) →
      (performAll calls {}).written = (performAll others {}).written → calls = others) ∧
    (performAll calls {}).written.count Grammar.newlineByte = (calls.map HostCall.lineCount).sum := by
  constructor
  · intro others proper' same
    rw [written_performAll proper rfl, written_performAll proper' rfl] at same
    exact HostCall.join_describe_injective (utf8_injective (List.append_cancel_left same))
  · rw [written_performAll proper rfl, List.count_append, count_newlineByte_utf8, String.toList_join, List.flatMap_map]
    clear proper
    induction calls with
    | nil => rfl
    | cons call rest ih =>
      simp only [List.flatMap_cons, List.count_append, List.map_cons, List.sum_cons,
        HostCall.count_newline_describe] at ih ⊢
      omega

/-- A text cannot pass for the quote, the comma or the line break that it holds. -/
theorem performAll_written_injective_at_quotes :
    let calls := [.install (.ofList [⟨7, "a\" = \"b", "c\n"⟩]), .launch ["d\", \"e"]]
    let others := [.install (.ofList [⟨7, "a", "b\" = \"c\n"⟩]), .launch ["d", "e"]]
    (performAll calls {}).written ≠ (performAll others {}).written ∧
      (performAll calls {}).written.count Grammar.newlineByte = 3 := by
  intro calls others
  have proper : ∀ call ∈ calls, call ≠ .launch [] := by decide
  have proper' : ∀ call ∈ others, call ≠ .launch [] := by decide
  have differ : calls ≠ others := by decide
  obtain ⟨told, lines⟩ := performAll_written_injective proper
  exact ⟨fun same => differ (told others proper' same), lines⟩

end Transcript

end MacroDeck
