import MacroDeck.Proofs.KeyValues.Lookup

namespace MacroDeck

theorem lookup_eq_none_of_not_mem {key : String} {pairs : List (String × String)} (h : key ∉ pairs.map Prod.fst) :
    pairs.lookup key = none :=
  List.lookup_eq_none_iff.mpr fun pair hp => by
    have other : key ≠ pair.1 := fun e => h (List.mem_map.mpr ⟨pair, hp, e.symm⟩)
    simpa using other

/-- Pairs of distinct keys are told by the keys in order and the value of each. -/
theorem pairs_ext {pairs pairs' : List (String × String)} (distinct : (pairs.map Prod.fst).Nodup)
    (keys : pairs.map Prod.fst = pairs'.map Prod.fst) (values : ∀ key, pairs.lookup key = pairs'.lookup key) :
    pairs = pairs' := by
  induction pairs generalizing pairs' with
  | nil => exact (List.map_eq_nil_iff.mp keys.symm).symm
  | cons first rest ih =>
    obtain ⟨key, value⟩ := first
    obtain ⟨⟨key', value'⟩, rest', rfl, eq, later⟩ := List.map_eq_cons_iff.mp keys.symm
    obtain rfl : key' = key := eq
    obtain ⟨notLater, distinct⟩ := List.nodup_cons.mp distinct
    have here := values key'
    simp only [lookup_cons_pair, if_pos, Option.some.injEq] at here
    rw [here, ih distinct later.symm fun k => ?_]
    by_cases hk : k = key'
    · subst hk
      rw [lookup_eq_none_of_not_mem notLater, lookup_eq_none_of_not_mem (later ▸ notLater)]
    · simpa only [lookup_cons_pair, if_neg hk] using values k

namespace KeyValues

section

variable {m m' : KeyValues} {pairs : List (String × String)}

theorem ext_get? (keys : m.keys = m'.keys) (values : ∀ key, m.get? key = m'.get? key) : m = m' :=
  eq_of_pairs (pairs_ext m.distinct keys values)

theorem insertAll_append (m : KeyValues) (pairs later : List (String × String)) :
    m.insertAll (pairs ++ later) = (m.insertAll pairs).insertAll later :=
  List.foldl_append

theorem keys_insertAll (distinct : (pairs.map Prod.fst).Nodup) :
    (m.insertAll pairs).keys = m.keys ++ (pairs.map Prod.fst).filter (· ∉ m.keys) := by
  induction pairs generalizing m with
  | nil => simp
  | cons pair rest ih =>
    obtain ⟨key, value⟩ := pair
    obtain ⟨notLater, distinct⟩ := List.nodup_cons.mp distinct
    rw [insertAll_cons, ih distinct, keys_insert, List.map_cons]
    by_cases old : key ∈ m.keys
    · rw [if_pos old, List.filter_cons_of_neg (by simpa using old)]
    · have same : (rest.map Prod.fst).filter (· ∉ m.keys ++ [key]) = (rest.map Prod.fst).filter (· ∉ m.keys) := by
        refine List.filter_congr fun k hk => ?_
        have other : k ≠ key := fun e => notLater (e ▸ hk)
        simp [other]
      rw [if_neg old, same, List.filter_cons_of_pos (by simpa using old), List.append_assoc]
      rfl

theorem get?_insertAll (distinct : (pairs.map Prod.fst).Nodup) (key : String) :
    (m.insertAll pairs).get? key = (pairs.lookup key).or (m.get? key) := by
  induction pairs generalizing m with
  | nil => rfl
  | cons pair rest ih =>
    obtain ⟨k, value⟩ := pair
    obtain ⟨notLater, distinct⟩ := List.nodup_cons.mp distinct
    rw [insertAll_cons, ih distinct, get?_insert, lookup_cons_pair]
    by_cases hk : key = k
    · subst hk
      rw [lookup_eq_none_of_not_mem notLater, if_pos rfl, if_pos rfl]
      rfl
    · rw [if_neg hk, if_neg hk]

theorem mem_keys_insertAll {key : String} (distinct : (pairs.map Prod.fst).Nodup) (h : key ∈ pairs.map Prod.fst) :
    key ∈ (m.insertAll pairs).keys := by
  rw [keys_insertAll distinct]
  by_cases before : key ∈ m.keys
  · exact List.mem_append_left _ before
  · exact List.mem_append_right _ (List.mem_filter.mpr ⟨h, by simpa using before⟩)

/-- A pair may be inserted before or after the map that it is inserted into is. -/
theorem insertAll_insert (m m' : KeyValues) (key value : String) :
    m.insertAll (m'.insert key value).pairs = (m.insertAll m'.pairs).insert key value := by
  by_cases old : key ∈ m'.keys
  · have keys : (m'.insert key value).pairs.map Prod.fst = m'.pairs.map Prod.fst :=
      (keys_insert m' key value).trans (if_pos old)
    refine ext_get? ?_ fun k => ?_
    · rw [keys_insert, if_pos (mem_keys_insertAll m'.distinct old), keys_insertAll (m'.insert key value).distinct,
        keys_insertAll m'.distinct, keys]
    · have given : (m'.insert key value).pairs.lookup k = _ := get?_insert m' key value k
      rw [get?_insert, get?_insertAll (m'.insert key value).distinct, get?_insertAll m'.distinct, given]
      by_cases hk : k = key
      · rw [if_pos hk, if_pos hk]
        rfl
      · rw [if_neg hk, if_neg hk]
        rfl
  · have last : (m'.insert key value).pairs = m'.pairs ++ [(key, value)] := putPair_fresh old
    rw [last, insertAll_append]
    rfl

/-- What is inserted into a map before that map is inserted may as well be inserted after it. -/
theorem insertAll_insertAll (m m' : KeyValues) (pairs : List (String × String)) :
    m.insertAll (m'.insertAll pairs).pairs = (m.insertAll m'.pairs).insertAll pairs := by
  induction pairs generalizing m' with
  | nil => rfl
  | cons pair rest ih => rw [insertAll_cons, ih, insertAll_insert, insertAll_cons]

theorem insertAll_ofList (m : KeyValues) (pairs : List (String × String)) :
    m.insertAll (ofList pairs).pairs = m.insertAll pairs :=
  insertAll_insertAll m empty pairs

end

end KeyValues

end MacroDeck
