import MacroDeck.Event
import MacroDeck.Proofs.Text.Quoted

namespace MacroDeck

theorem inert_append (s t : String) : inert (s ++ t) = inert s ++ inert t := by
  simp [inert]

theorem inert_of_plain {s : String} (plain : ∀ c ∈ s.toList, inertChar c = [c]) : inert s = s := by
  rw [inert, List.flatMap_congr plain, List.flatMap_singleton', String.ofList_toList]

theorem not_isPrintable_of_control {c : Char} (control : c.toNat ≤ 0x1F ∨ 0x7F ≤ c.toNat ∧ c.toNat ≤ 0xA0) :
    isPrintable c = false := by
  obtain ⟨rest, begins⟩ : ∃ rest, unprintableRanges = (0x0, 0x1F) :: (0x7F, 0xA0) :: rest := ⟨_, rfl⟩
  have among : Ranges.contains unprintableRanges c.toNat = true := by
    rw [begins, Ranges.contains, Ranges.contains]
    rcases control with low | ⟨above, below⟩
    · simp [low]
    · simp [above, below]
  rw [isPrintable, among]
  rfl

/-- Whatever can be seen leaves a terminal alone. -/
theorem inertChar_of_isPrintable {c : Char} (printable : isPrintable c = true) : inertChar c = [c] := by
  have noControl : ¬ (c.toNat ≤ 0x1F ∨ 0x7F ≤ c.toNat ∧ c.toNat ≤ 0xA0) := by
    intro control
    rw [not_isPrintable_of_control control] at printable
    cases printable
  have noSignal : isAsciiSignal c = false := by
    refine Bool.eq_false_iff.mpr fun signal => noControl ?_
    simp only [isAsciiSignal, Bool.or_eq_true, beq_iff_eq] at signal
    rcases signal with (((rfl | rfl) | rfl) | rfl) | rfl <;> decide
  have noUpper : isUpperControl c = false := by
    refine Bool.eq_false_iff.mpr fun upper => noControl ?_
    have := of_decide_eq_true upper
    omega
  rw [inertChar, noSignal, noUpper]
  rfl

theorem not_isHidden_of_quoteChar {c : Char} (h : quoteChar c = [c]) : isHidden c = false := by
  unfold quoteChar at h
  split at h
  case h_7 =>
    split at h
    next => simp [hexEscape] at h
    next shown => exact Bool.eq_false_iff.mpr shown
  all_goals simp at h

theorem inertChar_digitChar {n : Nat} (h : n < 16) : inertChar (Nat.digitChar n) = [Nat.digitChar n] := by
  have digits : ∀ n < 16, inertChar (Nat.digitChar n) = [Nat.digitChar n] := by decide
  exact digits n h

theorem inertChar_of_mem_hexEscape {c d : Char} (h : d ∈ hexEscape c) : inertChar d = [d] := by
  rw [hexEscape] at h
  simp only [List.cons_append, List.mem_cons, List.mem_append, List.not_mem_nil, or_false] at h
  rcases h with rfl | rfl | rfl | digit | rfl
  · decide
  · decide
  · decide
  · obtain ⟨n, hn, rfl⟩ := exists_digitChar_of_mem_toDigits (by decide) digit
    exact inertChar_digitChar hn
  · decide

theorem inertChar_of_mem_inertChar {c d : Char} (h : d ∈ inertChar c) : inertChar d = [d] := by
  unfold inertChar at h
  split at h
  next signal =>
    have small : c.toNat / 16 < 16 := by
      simp only [isAsciiSignal, Bool.or_eq_true, beq_iff_eq] at signal
      rcases signal with (((rfl | rfl) | rfl) | rfl) | rfl <;> decide
    rw [shortHexEscape] at h
    simp only [List.mem_cons, List.not_mem_nil, or_false] at h
    rcases h with rfl | rfl | rfl | rfl
    · decide
    · decide
    · exact inertChar_digitChar small
    · exact inertChar_digitChar (Nat.mod_lt _ (by decide))
  next noSignal =>
    split at h
    next => exact inertChar_of_mem_hexEscape h
    next noUpper =>
      obtain rfl := List.mem_singleton.mp h
      rw [inertChar, if_neg noSignal, if_neg noUpper]

theorem inert_inert (s : String) : inert (inert s) = inert s := by
  refine inert_of_plain fun d hd => ?_
  rw [inert, String.toList_ofList, List.mem_flatMap] at hd
  obtain ⟨c, -, hc⟩ := hd
  exact inertChar_of_mem_inertChar hc

theorem inertChar_of_mem_quoteChar {c d : Char} (h : d ∈ quoteChar c) : inertChar d = [d] := by
  rcases quoteChar_cases c with ⟨letter, hl, hc⟩ | hc | ⟨hc, -⟩
  · have plain : ∀ pair ∈ namedEscapes, inertChar pair.2 = [pair.2] := by decide
    rw [hc, List.mem_cons, List.mem_singleton] at h
    rcases h with rfl | rfl
    · decide
    · exact plain _ hl
  · exact inertChar_of_mem_hexEscape (hc ▸ h)
  · obtain rfl : d = c := List.mem_singleton.mp (hc ▸ h)
    have shown := not_isHidden_of_quoteChar hc
    simp only [isHidden, Bool.or_eq_false_iff, Bool.not_eq_false'] at shown
    exact inertChar_of_isPrintable shown.2

/-- A quoted text is shown in a log as it is. -/
theorem inert_quoted (s : String) : inert (quoted s) = quoted s := by
  refine inert_of_plain fun d hd => ?_
  rw [quoted_toList, List.mem_cons, List.mem_append, List.mem_flatMap, List.mem_singleton] at hd
  rcases hd with rfl | ⟨c, -, hc⟩ | rfl
  · decide
  · exact inertChar_of_mem_quoteChar hc
  · decide

theorem inert_decimal (n : Nat) : inert (toString n) = toString n := by
  refine inert_of_plain fun d hd => ?_
  rw [decimal_toList] at hd
  obtain ⟨k, hk, rfl⟩ := exists_digitChar_of_mem_toDigits (by decide) hd
  exact inertChar_digitChar (by omega)

namespace Event

/-- Why a key is skipped, if the event tells of one. -/
def skipped? : Event → Option KeyError
  | skippedKey e => some e
  | _ => none

/-- Which slot is redefined and what it held, if the event tells of one. -/
def redefinition? : Event → Option (Nat × String)
  | redefined slot old => some (slot, old)
  | _ => none

/-- No line of a log is one that a terminal acts on. -/
theorem inert_line (e : Event) : inert e.line = e.line := by
  have parts : e.line = e.level.label ++ " " ++ e.source ++ ": " ++ inert e.message := rfl
  have marks : inert " " = " " ∧ inert ": " = ": " := by decide
  have level : inert e.level.label = e.level.label := by
    cases e.level <;> decide
  have source : inert e.source = e.source := by
    cases e <;> (dsimp only [source]; decide)
  simp only [parts, inert_append, inert_inert, marks, level, source]

theorem line_redefined (slot : Nat) (old : String) :
    (redefined slot old).line =
      "DEBUG termfiles::macros: Macro " ++ toString slot ++ " redefined (was " ++ quoted old ++ ")" := by
  have parts : (redefined slot old).line = "DEBUG" ++ " " ++ ("termfiles" ++ "::macros") ++ ": " ++
      inert ("Macro " ++ toString slot ++ " redefined (was " ++ quoted old ++ ")") := rfl
  have texts : inert "Macro " = "Macro " ∧ inert " redefined (was " = " redefined (was " ∧ inert ")" = ")" := by
    decide
  have head : "DEBUG" ++ " " ++ ("termfiles" ++ "::macros") ++ ": " ++ "Macro " = "DEBUG termfiles::macros: Macro " := by
    decide
  simp only [parts, inert_append, inert_decimal, inert_quoted, texts, ← head, String.append_assoc]

theorem line_skippedKey (e : KeyError) :
    (skippedKey e).line =
      " WARN termfiles::macros: Skipping invalid macro key " ++ quoted e.key ++ ": " ++ e.fault.message := by
  have parts : (skippedKey e).line = " WARN" ++ " " ++ ("termfiles" ++ "::macros") ++ ": " ++
      inert ("Skipping " ++ ("invalid macro key " ++ quoted e.key ++ ": " ++ e.fault.message)) := rfl
  have texts : inert "Skipping " = "Skipping " ∧ inert "invalid macro key " = "invalid macro key " ∧
      inert ": " = ": " := by
    decide
  have reason : inert e.fault.message = e.fault.message := by
    cases e.fault <;> decide
  have head : " WARN" ++ " " ++ ("termfiles" ++ "::macros") ++ ": " ++ "Skipping " ++ "invalid macro key " =
      " WARN termfiles::macros: Skipping invalid macro key " := by
    decide
  simp only [parts, inert_append, inert_quoted, texts, reason, ← head, String.append_assoc]

/-- Every line begins with the level and the source of its event. -/
theorem line_eq (e : Event) : ∃ told, e.line = e.level.label ++ " " ++ e.source ++ ": " ++ told :=
  ⟨inert e.message, rfl⟩

theorem not_startsWith {line head mark : String} (begins : ∃ told, line = head ++ told)
    (short : head.toList.length ≤ mark.toList.length) (differ : ¬ head.toList <+: mark.toList) :
    line.startsWith mark = false := by
  obtain ⟨told, rfl⟩ := begins
  refine Bool.eq_false_iff.mpr fun starts => differ ?_
  rw [String.startsWith_string_iff, String.toList_append] at starts
  exact List.prefix_of_prefix_length_le (List.prefix_append _ _) starts short

theorem startsWith_append (mark told : String) : (mark ++ told).startsWith mark = true := by
  rw [String.startsWith_string_iff, String.toList_append]
  exact List.prefix_append _ _

theorem startsWith_redefinition (e : Event) :
    e.line.startsWith "DEBUG termfiles::macros: Macro " = e.redefinition?.isSome := by
  cases e with
  | redefined slot old =>
    rw [line_redefined, String.append_assoc, String.append_assoc, String.append_assoc, startsWith_append]
    rfl
  | _ =>
    refine not_startsWith (line_eq _) ?_ ?_
    · dsimp only [level, source, Level.label]
      decide
    · dsimp only [level, source, Level.label]
      decide

theorem startsWith_skipping (e : Event) :
    e.line.startsWith " WARN termfiles::macros: Skipping " = e.skipped?.isSome := by
  cases e with
  | skippedKey e =>
    have marked : " WARN termfiles::macros: Skipping invalid macro key " =
        " WARN termfiles::macros: Skipping " ++ "invalid macro key " := by decide
    rw [line_skippedKey, marked, String.append_assoc, String.append_assoc, String.append_assoc, startsWith_append]
    rfl
  | _ =>
    refine not_startsWith (line_eq _) ?_ ?_
    · dsimp only [level, source, Level.label]
      decide
    · dsimp only [level, source, Level.label]
      decide

/-- The lines of a log that begin in a way of their own are those of the events that are told so. -/
theorem filter_lines {α : Type} {mark : String} {pick : Event → Option α} {tell : α → String}
    (marked : ∀ e : Event, e.line.startsWith mark = (pick e).isSome)
    (told : ∀ e a, pick e = some a → e.line = tell a) (log : List Event) :
    (log.map line).filter (·.startsWith mark) = (log.filterMap pick).map tell := by
  induction log with
  | nil => rfl
  | cons e log ih =>
    rw [List.map_cons, List.filter_cons, marked, ih]
    cases picked : pick e with
    | none =>
      rw [List.filterMap_cons_none picked]
      rfl
    | some a =>
      rw [List.filterMap_cons_some picked, List.map_cons, told e a picked]
      rfl

/-- The lines that tell of a slot redefined. -/
theorem redefinition_lines (log : List Event) :
    (log.map line).filter (·.startsWith "DEBUG termfiles::macros: Macro ") =
      (log.filterMap redefinition?).map fun told =>
        "DEBUG termfiles::macros: Macro " ++ toString told.1 ++ " redefined (was " ++ quoted told.2 ++ ")" := by
  refine filter_lines startsWith_redefinition (fun e told picked => ?_) log
  cases e with
  | redefined slot old =>
    obtain rfl : (slot, old) = told := Option.some.inj picked
    exact line_redefined slot old
  | _ => cases picked

/-- The lines that warn of a key skipped. -/
theorem skipping_lines (log : List Event) :
    (log.map line).filter (·.startsWith " WARN termfiles::macros: Skipping ") =
      (log.filterMap skipped?).map fun e =>
        " WARN termfiles::macros: Skipping invalid macro key " ++ quoted e.key ++ ": " ++ e.fault.message := by
  refine filter_lines startsWith_skipping (fun e told picked => ?_) log
  cases e with
  | skippedKey e =>
    obtain rfl : e = told := Option.some.inj picked
    exact line_skippedKey e
  | _ => cases picked

end Event

end MacroDeck
