import MacroDeck.Proofs.MacroSet.OfDocument

namespace MacroDeck

namespace Naming

/-- What holds the place of a number. -/
def place : List Char :=
  ['\x7b', '\x7d']

/-- How many places there are, found from the left. -/
def places : List Char → Nat
  | [] => 0
  | '\x7b' :: '\x7d' :: cs => places cs + 1
  | _ :: cs => places cs

section

variable {cs number other : List Char} {c : Char}

theorem hasPlace_cons :
    hasPlace (c :: cs) = true ↔ c = '\x7b' ∧ cs.head? = some '\x7d' ∨ hasPlace cs = true := by
  by_cases first : c = '\x7b' ∧ cs.head? = some '\x7d'
  · obtain ⟨rfl, second⟩ := first
    obtain ⟨rest, rfl⟩ := List.head?_eq_some_iff.mp second
    simp [hasPlace]
  · have none : hasPlace (c :: cs) = hasPlace cs := by
      rw [hasPlace]
      rintro rest rfl rfl
      exact first ⟨rfl, rfl⟩
    rw [none, or_iff_right first]

theorem hasPlace_iff : hasPlace cs = true ↔ place <:+: cs := by
  induction cs with
  | nil => simp [hasPlace, place]
  | cons c cs ih =>
    have first : place <+: c :: cs ↔ c = '\x7b' ∧ cs.head? = some '\x7d' := by
      cases cs <;> simp [place, List.cons_prefix_cons, eq_comm]
    rw [hasPlace_cons, List.infix_cons_iff, first, ih]

theorem intercalate_cons_head (glue first : List Char) (later : List (List Char)) (c : Char) :
    glue.intercalate ((c :: first) :: later) = c :: glue.intercalate (first :: later) := by
  cases later with
  | nil => simp
  | cons => simp [List.intercalate_cons_cons]

/-- The places part a template into pieces without one. A filled template has the number between them. -/
theorem exists_pieces (cs : List Char) :
    ∃ first later, (∀ piece ∈ first :: later, ¬ place <:+: piece) ∧ cs = place.intercalate (first :: later) ∧
      ∀ number, fill number cs = number.intercalate (first :: later) := by
  simp only [← hasPlace_iff]
  fun_induction places cs with
  | case1 => exact ⟨[], [], List.forall_mem_singleton.mpr nofun, rfl, fun _ => rfl⟩
  | case2 cs ih =>
    obtain ⟨first, later, free, whole, filled⟩ := ih
    refine ⟨[], first :: later, List.forall_mem_cons.mpr ⟨nofun, free⟩, ?_, fun number => ?_⟩
    · rw [List.intercalate_cons_cons, ← whole]
      rfl
    · rw [fill, filled, List.intercalate_cons_cons, List.nil_append]
  | case3 c cs notPlace ih =>
    obtain ⟨first, later, free, whole, filled⟩ := ih
    obtain ⟨freeFirst, freeLater⟩ := List.forall_mem_cons.mp free
    refine ⟨c :: first, later, List.forall_mem_cons.mpr ⟨fun placed => ?_, freeLater⟩, ?_, fun number => ?_⟩
    · rcases hasPlace_cons.mp placed with ⟨rfl, closing⟩ | placed
      · obtain ⟨rest, rfl⟩ := List.head?_eq_some_iff.mp closing
        rw [intercalate_cons_head] at whole
        exact notPlace _ rfl whole
      · exact freeFirst placed
    · rw [intercalate_cons_head, ← whole]
    · rw [intercalate_cons_head, ← filled, fill]
      exact notPlace

/-- The name has the number of the slot in every place of the template, or after it and a space where the template has no
place. -/
def Gives (n : Naming) (index : Nat) (name : String) : Prop :=
  ∃ first later, (∀ piece ∈ first :: later, ¬ place <:+: piece) ∧
    n.template.toList = place.intercalate (first :: later) ∧
    name.toList =
      if later = [] then first ++ ' ' :: Nat.toDigits 10 index
      else (Nat.toDigits 10 index).intercalate (first :: later)

theorem gives_name (n : Naming) (index : Nat) : n.Gives index (n.name index) := by
  obtain ⟨first, later, free, whole, filled⟩ := exists_pieces n.template.toList
  refine ⟨first, later, free, whole, ?_⟩
  rw [name, String.toList_ofList, filled]
  cases later with
  | nil =>
    have alone : n.template.toList = first := by rw [whole, List.intercalate_singleton]
    have unplaced : hasPlace first ≠ true := mt hasPlace_iff.mp (free first List.mem_cons_self)
    rw [if_pos rfl, alone, if_neg unplaced]
  | cons second later =>
    have placed : hasPlace n.template.toList = true := by
      rw [hasPlace_iff, whole, List.intercalate_cons_cons]
      exact ⟨first, place.intercalate (second :: later), rfl⟩
    rw [if_pos placed, if_neg (List.cons_ne_nil _ _)]

theorem places_pos (h : hasPlace cs = true) : 0 < places cs := by
  fun_induction places cs with
  | case1 => cases h
  | case2 => exact Nat.succ_pos _
  | case3 c cs notPlace ih =>
    rw [hasPlace] at h
    · exact ih h
    · exact notPlace

theorem length_fill (number cs : List Char) :
    (fill number cs).length = (fill [] cs).length + places cs * number.length := by
  fun_induction places cs with
  | case1 => simp [fill]
  | case2 cs ih =>
    simp only [fill, List.length_append, List.length_nil, ih, Nat.succ_mul]
    omega
  | case3 c cs notPlace ih =>
    rw [fill, fill, List.length_cons, List.length_cons, ih]
    · omega
    · exact notPlace
    · exact notPlace

/-- The first place shows the number, behind what is the same for all numbers. -/
theorem exists_fill (h : hasPlace cs = true) :
    ∃ before after, ∀ number, fill number cs = before ++ (number ++ fill number after) := by
  fun_induction hasPlace cs with
  | case1 => cases h
  | case2 cs => exact ⟨[], cs, fun _ => rfl⟩
  | case3 c cs notPlace ih =>
    obtain ⟨before, after, split⟩ := ih h
    refine ⟨c :: before, after, fun number => ?_⟩
    rw [fill, split number]
    · rfl
    · exact notPlace

theorem fill_injective (h : hasPlace cs = true) (same : fill number cs = fill other cs) : number = other := by
  have lengths : number.length = other.length := by
    have whole := congrArg List.length same
    rw [length_fill number, length_fill other] at whole
    exact Nat.eq_of_mul_eq_mul_left (places_pos h) (Nat.add_left_cancel whole)
  obtain ⟨before, after, split⟩ := exists_fill h
  rw [split, split] at same
  exact (List.append_inj (List.append_cancel_left same) lengths).1

theorem hasPlace_append (apart : '\x7b' ∉ number) (cs : List Char) : hasPlace (number ++ cs) = hasPlace cs := by
  induction number with
  | nil => rfl
  | cons c number ih =>
    obtain ⟨ne, apart⟩ := not_or.mp (mt List.mem_cons.mpr apart)
    rw [List.cons_append, Bool.eq_iff_iff, hasPlace_cons, ih apart]
    exact or_iff_right fun first => ne first.1.symm

theorem head_fill (filled : number ≠ []) (apart : '\x7d' ∉ number) (h : (fill number cs).head? = some '\x7d') :
    cs.head? = some '\x7d' := by
  fun_cases fill number cs with
  | case1 => cases h
  | case2 cs =>
    rw [fill, List.head?_append_of_ne_nil _ filled] at h
    exact absurd (List.mem_of_mem_head? h) apart
  | case3 c cs notPlace =>
    rw [fill] at h
    · exact h
    · exact notPlace

/-- Where places are filled with what holds no part of a place, none comes about. -/
theorem hasPlace_fill (filled : number ≠ []) (apart : ∀ c ∈ place, c ∉ number) (cs : List Char) :
    hasPlace (fill number cs) = false := by
  have noOpening : '\x7b' ∉ number := apart _ List.mem_cons_self
  have noClosing : '\x7d' ∉ number := apart _ (List.mem_cons_of_mem _ List.mem_cons_self)
  fun_induction fill number cs with
  | case1 => rfl
  | case2 cs ih => rw [hasPlace_append noOpening, ih]
  | case3 c cs notPlace ih =>
    refine Bool.eq_false_iff.mpr fun left => ?_
    rcases hasPlace_cons.mp left with ⟨rfl, closing⟩ | later
    · obtain ⟨rest, rfl⟩ := List.head?_eq_some_iff.mp (head_fill filled noClosing closing)
      exact notPlace rest rfl rfl
    · rw [ih] at later
      cases later

end

section

variable {n : Naming}

theorem name_injective (n : Naming) : Function.Injective n.name := by
  intro i j same
  have texts := String.ofList_injective same
  apply decimal_injective
  by_cases placed : hasPlace n.template.toList = true
  · rw [if_pos placed, if_pos placed] at texts
    exact fill_injective placed texts
  · rw [if_neg placed, if_neg placed] at texts
    exact (List.cons.inj (List.append_cancel_left texts)).2

theorem place_not_infix_name (placed : place <:+: n.template.toList) (slot : Nat) :
    ¬ place <:+: (n.name slot).toList := by
  have braces : ∀ c ∈ place, c.isDigit = false := List.forall_mem_cons.mpr ⟨rfl, List.forall_mem_singleton.mpr rfl⟩
  have left := hasPlace_fill Nat.toDigits_ne_nil (fun c hc => char_not_mem_decimal (braces c hc) slot) n.template.toList
  rw [← hasPlace_iff] at placed ⊢
  rw [name, String.toList_ofList, if_pos placed, left]
  nofun

end

end Naming

namespace MacroSet

variable {policy : KeyPolicy} {naming : Naming} {m : KeyValues} {set : MacroSet} {slot : Slot}

theorem name_of_ofKeyValues (built : (ofKeyValues policy naming m).2 = .ok set) (h : slot ∈ set.slots) :
    slot.name = naming.name slot.index := by
  have found := get?_eq_some_iff.mpr ⟨h, rfl⟩
  rw [get?_of_ofKeyValues built] at found
  obtain ⟨pair, -, same⟩ := Option.map_eq_some_iff.mp found
  rw [← same]

end MacroSet

/-- A name tells the number of its slot, and in a template with places all of them are filled. So no two slots of a set
have one name. -/
theorem names_identify_slots (n : Naming) :
    (∀ i j, n.name i = n.name j → i = j) ∧
    (Naming.place <:+: n.template.toList → ∀ i, ¬ Naming.place <:+: (n.name i).toList) ∧
    ∀ policy m set, (MacroSet.ofKeyValues policy n m).2 = .ok set → (set.slots.map Slot.name).Nodup := by
  refine ⟨fun i j same => n.name_injective same, Naming.place_not_infix_name, fun policy m set built => ?_⟩
  have names : set.slots.map Slot.name = (set.slots.map Slot.index).map n.name := by
    rw [List.map_map]
    exact List.map_congr_left fun slot hs => MacroSet.name_of_ofKeyValues built hs
  rw [names]
  exact set.nodup_indices.map n.name_injective

/-- Digits beside the places, and braces around one. -/
theorem names_identify_slots_between_braces :
    let n : Naming := { template := "1\x7b\x7d\x7b\x7b\x7d\x7d" }
    let set := MacroSet.ofList [⟨1, "11\x7b1\x7d", "a"⟩, ⟨11, "111\x7b11\x7d", "b"⟩]
    Naming.place <:+: n.template.toList ∧ ¬ Naming.place <:+: (n.name 11).toList ∧
      (MacroSet.ofKeyValues .strict n (.ofList [("f11", "b"), ("m0", "a")])).2 = .ok set ∧
      (set.slots.map Slot.name).Nodup := by
  intro n set
  have placed : Naming.place <:+: n.template.toList := ⟨['1'], "\x7b\x7b\x7d\x7d".toList, by decide⟩
  have built : (MacroSet.ofKeyValues .strict n (.ofList [("f11", "b"), ("m0", "a")])).2 = .ok set := by decide
  obtain ⟨-, filled, distinct⟩ := names_identify_slots n
  exact ⟨placed, filled placed 11, built, distinct _ _ _ built⟩

end MacroDeck
