import MacroDeck.Proofs.Event
import MacroDeck.Proofs.MacroKey.Slots
import MacroDeck.Proofs.MacroSet.Slots

namespace MacroDeck

instance : DecidablePred Slotless := fun key =>
  decidable_of_iff ((slotOfKey key).toBool = false) <| by
    rw [slotless_iff_error]
    cases slotOfKey key <;> simp [Except.toBool]

/-- The last of the keys that names the slot. -/
structure Latest (keys : List String) (slot : Nat) (key : String) : Prop where
  names : NamesSlot key slot
  last : ∃ before after, keys = before ++ key :: after ∧ ∀ k ∈ after, ¬ NamesSlot k slot

/-- The key names a slot that another one before it does, and of those before it `previous` is the last. -/
structure Supersedes (keys : List String) (slot : Nat) (previous key : String) : Prop where
  names : NamesSlot key slot
  place : ∃ before after, keys = before ++ key :: after ∧ Latest before slot previous

theorem NamesSlot.unique {key : String} {slot slot' : Nat} (h : NamesSlot key slot) (h' : NamesSlot key slot') :
    slot = slot' :=
  Except.ok.inj ((slotOfKey_eq_ok_iff.mpr h).symm.trans (slotOfKey_eq_ok_iff.mpr h'))

section

variable {keys : List String} {slot : Nat} {key previous k : String}

theorem Latest.mem (h : Latest keys slot key) : key ∈ keys := by
  obtain ⟨before, after, rfl, -⟩ := h.last
  simp

theorem latest_concat (h : NamesSlot k slot) : Latest (keys ++ [k]) slot k :=
  ⟨h, keys, [], rfl, List.forall_mem_nil _⟩

theorem Latest.concat (h : Latest keys slot key) (other : ¬ NamesSlot k slot) : Latest (keys ++ [k]) slot key := by
  obtain ⟨before, after, rfl, none⟩ := h.last
  refine ⟨h.names, before, after ++ [k], by simp, fun k' hk => ?_⟩
  rcases List.mem_append.mp hk with hk | hk
  · exact none k' hk
  · exact List.mem_singleton.mp hk ▸ other

/-- A key that comes last leaves the others as they are, and supersedes the last one of its slot. -/
theorem supersedes_concat_iff :
    Supersedes (keys ++ [k]) slot previous key ↔
      Supersedes keys slot previous key ∨ key = k ∧ NamesSlot k slot ∧ Latest keys slot previous := by
  constructor
  · rintro ⟨names, before, after, split, latest⟩
    rcases List.eq_nil_or_concat after with rfl | ⟨later, last, rfl⟩
    · obtain ⟨rfl, same⟩ := List.append_inj' split rfl
      obtain rfl := List.singleton_inj.mp same
      exact .inr ⟨rfl, names, latest⟩
    · rw [List.concat_eq_append, ← List.cons_append, ← List.append_assoc] at split
      obtain ⟨rfl, -⟩ := List.append_inj' split rfl
      exact .inl ⟨names, before, later, rfl, latest⟩
  · rintro (⟨names, before, after, rfl, latest⟩ | ⟨rfl, names, latest⟩)
    · exact ⟨names, before, after ++ [k], by simp, latest⟩
    · exact ⟨names, keys, [], rfl, latest⟩

end

/-- Line by line the keys that supersede another one are told, in their order, each with its slot and with the value of
that other. -/
def Retold (pairs : List (String × String)) (lines : List (Nat × String)) : Prop :=
  ∃ superseding : List String, superseding.Sublist (pairs.map Prod.fst) ∧
    (∀ key, key ∈ superseding ↔ ∃ slot previous, Supersedes (pairs.map Prod.fst) slot previous key) ∧
    List.Forall₂
      (fun key line => ∃ previous, Supersedes (pairs.map Prod.fst) line.1 previous key ∧ (previous, line.2) ∈ pairs)
      superseding lines

section

variable {pairs : List (String × String)} {lines : List (Nat × String)} {key contents old : String} {slot : Nat}

theorem keys_concat : (pairs ++ [(key, contents)]).map Prod.fst = pairs.map Prod.fst ++ [key] :=
  List.map_append

theorem retold_nil : Retold [] [] := by
  refine ⟨[], .slnil, fun key => ⟨nofun, ?_⟩, .nil⟩
  rintro ⟨slot, previous, -, before, after, split, -⟩
  simp at split

/-- No line is due to a key that names no slot or is the first to name it. -/
theorem Retold.concat_first (h : Retold pairs lines)
    (first : ∀ slot previous, NamesSlot key slot → ¬ Latest (pairs.map Prod.fst) slot previous) :
    Retold (pairs ++ [(key, contents)]) lines := by
  obtain ⟨superseding, sublist, members, told⟩ := h
  rw [Retold, keys_concat]
  refine ⟨superseding, sublist.trans (List.sublist_append_left _ _), fun k => ?_, told.imp fun k line h => ?_⟩
  · rw [members]
    simp only [supersedes_concat_iff]
    refine exists_congr fun slot => exists_congr fun previous => (or_iff_left ?_).symm
    rintro ⟨-, names, latest⟩
    exact first slot previous names latest
  · obtain ⟨previous, supersedes, among⟩ := h
    exact ⟨previous, supersedes_concat_iff.mpr (.inl supersedes), List.mem_append_left _ among⟩

theorem Retold.concat_superseding (h : Retold pairs lines) (names : NamesSlot key slot) {previous : String}
    (latest : Latest (pairs.map Prod.fst) slot previous) (among : (previous, old) ∈ pairs) :
    Retold (pairs ++ [(key, contents)]) (lines ++ [(slot, old)]) := by
  obtain ⟨superseding, sublist, members, told⟩ := h
  have supersedes : Supersedes (pairs.map Prod.fst ++ [key]) slot previous key :=
    supersedes_concat_iff.mpr (.inr ⟨rfl, names, latest⟩)
  rw [Retold, keys_concat]
  refine ⟨superseding ++ [key], sublist.append (.refl _), fun k => ?_, List.rel_append (told.imp fun k line h => ?_)
    (.cons ⟨previous, supersedes, List.mem_append_left _ among⟩ .nil)⟩
  · rw [List.mem_append, members, List.mem_singleton]
    constructor
    · rintro (⟨i, other, h⟩ | rfl)
      · exact ⟨i, other, supersedes_concat_iff.mpr (.inl h)⟩
      · exact ⟨slot, previous, supersedes⟩
    · rintro ⟨i, other, h⟩
      rcases supersedes_concat_iff.mp h with h | ⟨rfl, -⟩
      · exact .inl ⟨i, other, h⟩
      · exact .inr rfl
  · obtain ⟨previous, supersedes, among⟩ := h
    exact ⟨previous, supersedes_concat_iff.mpr (.inl supersedes), List.mem_append_left _ among⟩

end

namespace MacroSet

section

variable {policy : KeyPolicy} {naming : Naming} {key contents : String} {rest : List (String × String)} {m : MacroSet}

theorem told_of_slot {index : Nat} (h : slotOfKey key = .ok index) :
    (addPairs policy naming ((key, contents) :: rest) m).1 =
      ((m.get? index).map fun old => Event.redefined index old.contents).toList ++
        (addPairs policy naming rest (m.define ⟨index, naming.name index, contents⟩)).1 := by
  simp [addPairs, h]

theorem told_skip_of_error {e : KeyError} (h : slotOfKey key = .error e) :
    (addPairs .skip naming ((key, contents) :: rest) m).1 = .skippedKey e :: (addPairs .skip naming rest m).1 := by
  simp [addPairs, h]

end

/-- What pairs have come to: the set that they fill and the events on the way account for each of them. -/
structure Account (pairs : List (String × String)) (set : MacroSet) (events : List Event) : Prop where
  size : pairs.length =
    set.size + (events.filterMap Event.redefinition?).length + (events.filterMap Event.skipped?).length
  /-- A slot holds the value of the last key that names it. -/
  filled : ∀ {index slot}, set.get? index = some slot →
    ∃ key, Latest (pairs.map Prod.fst) index key ∧ (key, slot.contents) ∈ pairs
  free : ∀ {index}, set.get? index = none → ∀ key ∈ pairs.map Prod.fst, ¬ NamesSlot key index
  skipped : (events.filterMap Event.skipped?).map KeyError.key = (pairs.map Prod.fst).filter Slotless
  retold : Retold pairs (events.filterMap Event.redefinition?)

namespace Account

theorem nil : Account [] empty [] :=
  ⟨rfl, nofun, fun _ => List.forall_mem_nil _, rfl, retold_nil⟩

section

variable {pairs : List (String × String)} {set : MacroSet} {events : List Event} {key contents : String}
  {index : Nat}

theorem skip (account : Account pairs set events) {e : KeyError} (failed : slotOfKey key = .error e) :
    Account (pairs ++ [(key, contents)]) set (events ++ [Event.skippedKey e]) := by
  have slotless : Slotless key := slotless_iff_error.mpr ⟨e, failed⟩
  have unnamed (index : Nat) : ¬ NamesSlot key index := fun names => not_slotless_iff.mpr ⟨index, names⟩ slotless
  have lines : (events ++ [Event.skippedKey e]).filterMap Event.redefinition? =
      events.filterMap Event.redefinition? := by
    simp [Event.redefinition?]
  have warnings : (events ++ [Event.skippedKey e]).filterMap Event.skipped? =
      events.filterMap Event.skipped? ++ [e] := by
    simp [Event.skipped?]
  refine ⟨?_, fun found => ?_, fun absent k hk => ?_, ?_, ?_⟩
  · rw [lines, warnings, List.length_append, List.length_append, account.size]
    simp only [List.length_singleton]
    omega
  · obtain ⟨k, latest, among⟩ := account.filled found
    rw [keys_concat]
    exact ⟨k, latest.concat (unnamed _), List.mem_append_left _ among⟩
  · rw [keys_concat] at hk
    rcases List.mem_append.mp hk with hk | hk
    · exact account.free absent k hk
    · exact List.mem_singleton.mp hk ▸ unnamed _
  · rw [warnings, keys_concat, List.map_append, List.filter_append, account.skipped]
    simp [slotless, (error_of_slotOfKey failed).1]
  · rw [lines]
    exact account.retold.concat_first fun index _ names => absurd names (unnamed index)

/-- A slot is defined, with a line about what it held, if it held anything. -/
theorem define (account : Account pairs set events) (names : NamesSlot key index) (name : String) :
    Account (pairs ++ [(key, contents)]) (set.define ⟨index, name, contents⟩)
      (events ++ ((set.get? index).map fun old => Event.redefined index old.contents).toList) := by
  have unskipped : (((set.get? index).map fun old => Event.redefined index old.contents).toList).filterMap
      Event.skipped? = [] := by
    cases set.get? index <;> rfl
  have lines : (((set.get? index).map fun old => Event.redefined index old.contents).toList).filterMap
      Event.redefinition? = ((set.get? index).map fun old => (index, old.contents)).toList := by
    cases set.get? index <;> rfl
  have slotted : ¬ Slotless key := not_slotless_iff.mpr ⟨index, names⟩
  refine ⟨?_, fun {i slot} found => ?_, fun {i} absent k hk => ?_, ?_, ?_⟩
  · rw [size_define, List.filterMap_append, List.filterMap_append, unskipped, lines, List.length_append, account.size]
    cases set.get? index <;> simp <;> omega
  · rw [keys_concat]
    rw [get?_define] at found
    split at found
    next same =>
      cases found
      subst same
      exact ⟨key, latest_concat names, List.mem_append_right _ (List.mem_singleton_self _)⟩
    next other =>
      obtain ⟨k, latest, among⟩ := account.filled found
      exact ⟨k, latest.concat fun names' => other (names'.unique names), List.mem_append_left _ among⟩
  · rw [get?_define] at absent
    split at absent
    next => cases absent
    next other =>
      rw [keys_concat] at hk
      rcases List.mem_append.mp hk with hk | hk
      · exact account.free absent k hk
      · exact List.mem_singleton.mp hk ▸ fun names' => other (names'.unique names)
  · rw [List.filterMap_append, unskipped, List.append_nil, keys_concat, List.filter_append, account.skipped]
    simp [slotted]
  · rw [List.filterMap_append, lines]
    cases found : set.get? index with
    | none =>
      refine (List.append_nil _).symm ▸ account.retold.concat_first fun i previous names' latest => ?_
      obtain rfl := names'.unique names
      exact account.free found previous latest.mem latest.names
    | some old =>
      obtain ⟨previous, latest, among⟩ := account.filled found
      exact account.retold.concat_superseding names latest among

/-- Pair by pair the account is kept, whatever comes of the keys. -/
theorem addPairs {policy : KeyPolicy} {naming : Naming} {rest : List (String × String)} {final : MacroSet}
    (account : Account pairs set events) (added : (addPairs policy naming rest set).2 = .ok final) :
    Account (pairs ++ rest) final (events ++ (MacroSet.addPairs policy naming rest set).1) := by
  induction rest generalizing pairs set events with
  | nil =>
    cases added
    simpa [MacroSet.addPairs] using account
  | cons pair rest ih =>
    obtain ⟨key, contents⟩ := pair
    rw [List.append_cons]
    cases hk : slotOfKey key with
    | ok index =>
      rw [addPairs_of_slot hk] at added
      rw [told_of_slot hk, ← List.append_assoc]
      exact ih (account.define (slotOfKey_eq_ok_iff.mp hk) (naming.name index)) added
    | error e =>
      cases policy with
      | strict =>
        rw [addPairs_strict_of_error hk] at added
        cases added
      | skip =>
        rw [addPairs_skip_of_error hk] at added
        rw [told_skip_of_error hk, List.append_cons events]
        exact ih (account.skip hk) added

/-- What tells of no key leaves the account as it is. -/
theorem append_unrelated (account : Account pairs set events) {later : List Event}
    (unrelated : ∀ e ∈ later, e.skipped? = none ∧ e.redefinition? = none) : Account pairs set (events ++ later) := by
  have unskipped : later.filterMap Event.skipped? = [] :=
    List.filterMap_eq_nil_iff.mpr fun e he => (unrelated e he).1
  have untold : later.filterMap Event.redefinition? = [] :=
    List.filterMap_eq_nil_iff.mpr fun e he => (unrelated e he).2
  obtain ⟨size, filled, free, skipped, retold⟩ := account
  refine ⟨?_, filled, free, ?_, ?_⟩
  · rw [List.filterMap_append, List.filterMap_append, unskipped, untold, List.append_nil, List.append_nil]
    exact size
  · rw [List.filterMap_append, unskipped, List.append_nil]
    exact skipped
  · rw [List.filterMap_append, untold, List.append_nil]
    exact retold

end

end Account

theorem account_ofKeyValues {policy : KeyPolicy} {naming : Naming} {m : KeyValues} {set : MacroSet}
    (built : (ofKeyValues policy naming m).2 = .ok set) :
    Account m.pairs set (ofKeyValues policy naming m).1 :=
  Account.nil.addPairs built

end MacroSet

end MacroDeck
