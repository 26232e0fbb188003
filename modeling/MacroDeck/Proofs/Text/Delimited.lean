import Mathlib.Data.List.Basic

namespace MacroDeck

theorem none_or_first {α : Type} (p : α → Prop) (xs : List α) :
    (∀ x ∈ xs, ¬ p x) ∨ ∃ before x after, xs = before ++ x :: after ∧ (∀ y ∈ before, ¬ p y) ∧ p x := by
  induction xs with
  | nil => exact .inl fun x hx => absurd hx List.not_mem_nil
  | cons x xs ih =>
    by_cases here : p x
    · exact .inr ⟨[], x, xs, rfl, fun y hy => absurd hy List.not_mem_nil, here⟩
    · rcases ih with none | ⟨before, first, after, rfl, none, there⟩
      · exact .inl (List.forall_mem_cons.mpr ⟨here, none⟩)
      · exact .inr ⟨x :: before, first, after, rfl, List.forall_mem_cons.mpr ⟨here, none⟩, there⟩

section

variable {α : Type} {p : α → Bool} {run rest : List α}

theorem takeWhile_run (h : ∀ c ∈ run, p c = true) (stop : ∀ c ∈ rest.head?, p c = false) :
    (run ++ rest).takeWhile p = run := by
  rw [List.takeWhile_append_of_pos h]
  cases rest with
  | nil => simp
  | cons c cs => simp [stop c rfl]

theorem dropWhile_run (h : ∀ c ∈ run, p c = true) (stop : ∀ c ∈ rest.head?, p c = false) :
    (run ++ rest).dropWhile p = rest := by
  rw [List.dropWhile_append_of_pos h]
  cases rest with
  | nil => rfl
  | cons c cs => simp [stop c rfl]

end

/-- What has been written, and what follows it, can be told from the whole. -/
def Delimited {α : Type} (write : α → List Char) : Prop :=
  ∀ ⦃a b : α⦄ ⦃x y : List Char⦄, write a ++ x = write b ++ y → a = b ∧ x = y

namespace Delimited

section

variable {α β : Type} {write : α → List Char}

theorem comap (h : Delimited write) {f : β → α} (inj : Function.Injective f) : Delimited fun b => write (f b) := by
  intro a b x y same
  obtain ⟨eq, rest⟩ := h same
  exact ⟨inj eq, rest⟩

theorem enclose (h : Delimited write) (before after : List Char) : Delimited fun a => before ++ write a ++ after := by
  intro a b x y same
  simp only [List.append_assoc] at same
  obtain ⟨eq, rest⟩ := h (List.append_cancel_left same)
  exact ⟨eq, List.append_cancel_left rest⟩

/-- A list ends where a character stands with which none of its items begins. -/
theorem list_until (h : Delimited write) {stop : Char} (begins : ∀ a, ∃ c cs, write a = c :: cs ∧ c ≠ stop) :
    Delimited fun items : List α => items.flatMap write ++ [stop] := by
  have apart (a : α) (rest x : List Char) : write a ++ rest ≠ stop :: x := by
    obtain ⟨c, cs, hw, ne⟩ := begins a
    rw [hw, List.cons_append]
    intro same
    exact ne (List.cons.inj same).1
  intro items
  induction items with
  | nil =>
    intro others x y same
    cases others with
    | nil => exact ⟨rfl, List.append_cancel_left same⟩
    | cons b bs =>
      simp only [List.flatMap_cons, List.flatMap_nil, List.append_assoc] at same
      exact absurd same.symm (apart b _ _)
  | cons a as ih =>
    intro others x y same
    cases others with
    | nil =>
      simp only [List.flatMap_cons, List.flatMap_nil, List.append_assoc] at same
      exact absurd same (apart a _ _)
    | cons b bs =>
      simp only [List.flatMap_cons, List.append_assoc] at same
      obtain ⟨rfl, later⟩ := h same
      simp only [← List.append_assoc] at later
      obtain ⟨rfl, rest⟩ := ih later
      exact ⟨rfl, rest⟩

/-- A list also ends where as many items are written as it has. -/
theorem list_counted (h : Delimited write) {items others : List α} (counted : items.length = others.length)
    {x y : List Char} (same : items.flatMap write ++ x = others.flatMap write ++ y) : items = others ∧ x = y := by
  induction items generalizing others with
  | nil =>
    obtain rfl := List.length_eq_zero_iff.mp counted.symm
    exact ⟨rfl, same⟩
  | cons a as ih =>
    obtain ⟨b, bs, rfl⟩ := List.exists_cons_of_length_eq_add_one counted.symm
    simp only [List.flatMap_cons, List.append_assoc] at same
    obtain ⟨rfl, later⟩ := h same
    obtain ⟨rfl, rest⟩ := ih (Nat.succ.inj counted) later
    exact ⟨rfl, rest⟩

theorem list_injective (h : Delimited write) (nonempty : ∀ a, write a ≠ []) :
    Function.Injective fun items : List α => items.flatMap write := by
  intro items
  induction items with
  | nil =>
    intro others same
    cases others with
    | nil => rfl
    | cons b bs => simp [nonempty b] at same
  | cons a as ih =>
    intro others same
    cases others with
    | nil => simp [nonempty a] at same
    | cons b bs =>
      simp only [List.flatMap_cons] at same
      obtain ⟨rfl, rest⟩ := h same
      rw [ih rest]

end

end Delimited

theorem run_append_inj {p : Char → Bool} {run run' rest rest' : List Char} (h : ∀ c ∈ run, p c = true)
    (h' : ∀ c ∈ run', p c = true) (stop : ∀ c ∈ rest.head?, p c = false) (stop' : ∀ c ∈ rest'.head?, p c = false)
    (same : run ++ rest = run' ++ rest') : run = run' ∧ rest = rest' := by
  have runs := congrArg (List.takeWhile p) same
  have rests := congrArg (List.dropWhile p) same
  rw [takeWhile_run h stop, takeWhile_run h' stop'] at runs
  rw [dropWhile_run h stop, dropWhile_run h' stop'] at rests
  exact ⟨runs, rests⟩

section

variable {base : Nat}

theorem exists_digitChar_of_mem_toDigits (hb : 1 < base) {n : Nat} {c : Char} (h : c ∈ Nat.toDigits base n) :
    ∃ d < base, c = Nat.digitChar d := by
  induction n using Nat.strongRecOn with
  | _ n ih =>
    rw [Nat.toDigits_eq_if hb] at h
    split at h
    next small => exact ⟨n, small, List.mem_singleton.mp h⟩
    next large =>
      rcases List.mem_append.mp h with h | h
      · exact ih (n / base) (Nat.div_lt_self (by omega) hb) h
      · exact ⟨n % base, Nat.mod_lt n (by omega), List.mem_singleton.mp h⟩

theorem toDigits_injective (hb : 1 < base)
    (digits : ∀ d < base, ∀ e < base, Nat.digitChar d = Nat.digitChar e → d = e) :
    Function.Injective (Nat.toDigits base) := by
  intro n
  induction n using Nat.strongRecOn with
  | _ n ih =>
    intro m same
    have split (k : Nat) : base ≤ k →
        Nat.toDigits base k = Nat.toDigits base (k / base) ++ [Nat.digitChar (k % base)] := Nat.toDigits_of_base_le hb
    have one (k : Nat) : k < base → Nat.toDigits base k = [Nat.digitChar k] := Nat.toDigits_of_lt_base
    have filled (k : Nat) : Nat.toDigits base k ≠ [] := Nat.toDigits_ne_nil
    by_cases hn : n < base <;> by_cases hm : m < base
    · rw [one n hn, one m hm] at same
      exact digits n hn m hm (List.singleton_inj.mp same)
    · rw [one n hn, split m (by omega)] at same
      exact absurd (List.append_eq_singleton_iff.mp same.symm) (by simp [filled])
    · rw [split n (by omega), one m hm] at same
      exact absurd (List.append_eq_singleton_iff.mp same) (by simp [filled])
    · rw [split n (by omega), split m (by omega)] at same
      obtain ⟨high, low⟩ := List.append_inj' same rfl
      have quotient : n / base = m / base := ih (n / base) (Nat.div_lt_self (by omega) hb) high
      have remainder : n % base = m % base :=
        digits _ (Nat.mod_lt n (by omega)) _ (Nat.mod_lt m (by omega)) (List.singleton_inj.mp low)
      rw [← Nat.div_add_mod n base, quotient, remainder, Nat.div_add_mod]

/-- A number ends where a character stands that is none of its digits. -/
theorem delimited_number (hb : 1 < base)
    (digits : ∀ d < base, ∀ e < base, Nat.digitChar d = Nat.digitChar e → d = e) {stop : Char}
    (apart : ∀ d < base, Nat.digitChar d ≠ stop) : Delimited fun n => Nat.toDigits base n ++ [stop] := by
  have run (n : Nat) : ∀ c ∈ Nat.toDigits base n, (c != stop) = true := by
    intro c hc
    obtain ⟨d, hd, rfl⟩ := exists_digitChar_of_mem_toDigits hb hc
    simpa using apart d hd
  have stops (x : List Char) : ∀ c ∈ (stop :: x).head?, (c != stop) = false := by
    intro c hc
    simpa using (Option.some.inj hc).symm
  intro n m x y same
  simp only [List.append_assoc, List.cons_append, List.nil_append] at same
  obtain ⟨number, rest⟩ := run_append_inj (run n) (run m) (stops x) (stops y) same
  exact ⟨toDigits_injective hb digits number, (List.cons.inj rest).2⟩

end

theorem decimal_toList (n : Nat) : (toString n).toList = Nat.toDigits 10 n := by
  simp

theorem isDigit_of_mem_toDigits {n : Nat} {c : Char} (h : c ∈ Nat.toDigits 10 n) : c.isDigit = true :=
  Nat.isDigit_of_mem_toDigits (by decide) (by decide) h

theorem char_not_mem_decimal {c : Char} (h : c.isDigit = false) (n : Nat) : c ∉ Nat.toDigits 10 n := by
  intro hc
  have digit := isDigit_of_mem_toDigits hc
  simp [h] at digit

theorem decimalDigits_injective : ∀ d < 10, ∀ e < 10, Nat.digitChar d = Nat.digitChar e → d = e := by
  decide

theorem decimal_injective : Function.Injective (Nat.toDigits 10) :=
  toDigits_injective (by decide) decimalDigits_injective

theorem delimited_decimal : Delimited fun n => Nat.toDigits 10 n ++ [' '] :=
  delimited_number (by decide) decimalDigits_injective (by decide)

end MacroDeck
