import MacroDeck.KeyValues
import Mathlib.Data.List.Basic

namespace MacroDeck

theorem mem_putPair {key value : String} {pair : String × String} {pairs : List (String × String)}
    (h : pair ∈ putPair key value pairs) : pair = (key, value) ∨ pair ∈ pairs := by
  induction pairs with
  | nil => simpa [putPair] using h
  | cons first rest ih =>
    obtain ⟨k, v⟩ := first
    by_cases hk : k = key
    · simp only [putPair, if_pos hk, List.mem_cons] at h
      exact h.imp_right (List.mem_cons_of_mem _)
    · simp only [putPair, if_neg hk, List.mem_cons] at h
      rcases h with rfl | h
      · exact .inr List.mem_cons_self
      · exact (ih h).imp_right (List.mem_cons_of_mem _)

theorem putPair_fresh {key value : String} {pairs : List (String × String)} (h : key ∉ pairs.map Prod.fst) :
    putPair key value pairs = pairs ++ [(key, value)] := by
  induction pairs with
  | nil => rfl
  | cons first rest ih =>
    obtain ⟨k, v⟩ := first
    obtain ⟨ne, fresh⟩ := not_or.mp (mt List.mem_cons.mpr h)
    rw [putPair, if_neg fun e => ne e.symm, ih fresh, List.cons_append]

theorem putPair_map (f : String → String) (key value : String) (pairs : List (String × String)) :
    putPair key (f value) (pairs.map (Prod.map id f)) = (putPair key value pairs).map (Prod.map id f) := by
  induction pairs with
  | nil => rfl
  | cons first rest ih =>
    obtain ⟨k, v⟩ := first
    rw [List.map_cons, Prod.map_apply, id_eq, putPair, putPair, ih]
    split <;> rfl

theorem lookup_cons_pair {key k value : String} {rest : List (String × String)} :
    ((key, value) :: rest).lookup k = if k = key then some value else rest.lookup k := by
  rw [List.lookup_cons]
  by_cases h : k = key
  · simp [h]
  · simp [h, beq_false_of_ne h]

theorem lookup_putPair (key value k : String) (pairs : List (String × String)) :
    (putPair key value pairs).lookup k = if k = key then some value else pairs.lookup k := by
  induction pairs with
  | nil => exact lookup_cons_pair
  | cons first rest ih =>
    obtain ⟨k', v'⟩ := first
    by_cases hf : k' = key
    · rw [putPair, if_pos hf, lookup_cons_pair, lookup_cons_pair, hf]
      split <;> rfl
    · rw [putPair, if_neg hf, lookup_cons_pair, lookup_cons_pair, ih]
      by_cases hk : k = key
      · have other : k ≠ k' := fun e => hf (e ▸ hk)
        rw [if_neg other, if_pos hk, if_pos hk]
      · rw [if_neg hk, if_neg hk]

theorem mem_iff_lookup {pairs : List (String × String)} (distinct : (pairs.map Prod.fst).Nodup) {key value : String} :
    (key, value) ∈ pairs ↔ pairs.lookup key = some value := by
  induction pairs with
  | nil => simp
  | cons first rest ih =>
    obtain ⟨k, v⟩ := first
    obtain ⟨notLater, later⟩ := List.nodup_cons.mp distinct
    rw [List.mem_cons, lookup_cons_pair]
    by_cases hk : key = k
    · subst hk
      have absent : (key, value) ∉ rest := fun hm => notLater (List.mem_map.mpr ⟨_, hm, rfl⟩)
      simp [absent, eq_comm]
    · simp [hk, ih later]

namespace KeyValues

theorem eq_of_pairs {m m' : KeyValues} (h : m.pairs = m'.pairs) : m = m' := by
  obtain ⟨pairs, distinct⟩ := m
  obtain ⟨pairs', distinct'⟩ := m'
  subst h
  rfl

theorem keys_insert (m : KeyValues) (key value : String) :
    (m.insert key value).keys = if key ∈ m.keys then m.keys else m.keys ++ [key] :=
  putPair_keys key value m.pairs

theorem get?_insert (m : KeyValues) (key value k : String) :
    (m.insert key value).get? k = if k = key then some value else m.get? k :=
  lookup_putPair key value k m.pairs

theorem mem_pairs_iff {m : KeyValues} {key value : String} : (key, value) ∈ m.pairs ↔ m.get? key = some value :=
  mem_iff_lookup m.distinct

/-- The pairs inserted one after the other into a map. -/
def insertAll (m : KeyValues) (pairs : List (String × String)) : KeyValues :=
  pairs.foldl (fun m pair => m.insert pair.1 pair.2) m

@[simp] theorem insertAll_nil (m : KeyValues) : m.insertAll [] = m :=
  rfl

@[simp] theorem insertAll_cons (m : KeyValues) (pair : String × String) (pairs : List (String × String)) :
    m.insertAll (pair :: pairs) = (m.insert pair.1 pair.2).insertAll pairs :=
  rfl

theorem ofList_eq_insertAll (pairs : List (String × String)) : ofList pairs = empty.insertAll pairs :=
  rfl

/-- Pairs of new keys, each of its own, come after those that are there. -/
theorem insertAll_fresh {m : KeyValues} {pairs : List (String × String)} (distinct : (pairs.map Prod.fst).Nodup)
    (fresh : ∀ key ∈ pairs.map Prod.fst, key ∉ m.keys) : (m.insertAll pairs).pairs = m.pairs ++ pairs := by
  induction pairs generalizing m with
  | nil => simp
  | cons pair rest ih =>
    obtain ⟨key, value⟩ := pair
    obtain ⟨notLater, distinct⟩ := List.nodup_cons.mp distinct
    have new : key ∉ m.pairs.map Prod.fst := fresh key List.mem_cons_self
    have inserted : (m.insert key value).pairs = m.pairs ++ [(key, value)] := putPair_fresh new
    have later : ∀ k ∈ rest.map Prod.fst, k ∉ (m.insert key value).keys := by
      intro k hk
      have notBefore := fresh k (List.mem_cons_of_mem _ hk)
      have other : k ≠ key := fun e => notLater (e ▸ hk)
      simpa [keys, inserted, other] using notBefore
    rw [insertAll_cons, ih distinct later, inserted, List.append_assoc]
    rfl

theorem ofList_pairs {pairs : List (String × String)} (distinct : (pairs.map Prod.fst).Nodup) :
    (ofList pairs).pairs = pairs := by
  rw [ofList_eq_insertAll, insertAll_fresh distinct (by simp [keys, empty])]
  rfl

theorem ofList_concat (pairs : List (String × String)) (pair : String × String) :
    ofList (pairs ++ [pair]) = (ofList pairs).insert pair.1 pair.2 :=
  List.foldl_append

def mapValues (f : String → String) (m : KeyValues) : KeyValues where
  pairs := m.pairs.map (Prod.map id f)
  distinct := by
    rw [List.map_map]
    exact m.distinct

section

variable (f : String → String) (m : KeyValues)

@[simp] theorem pairs_mapValues : (m.mapValues f).pairs = m.pairs.map (Prod.map id f) :=
  rfl

@[simp] theorem keys_mapValues : (m.mapValues f).keys = m.keys :=
  List.map_map

theorem insert_mapValues (key value : String) :
    (m.mapValues f).insert key (f value) = (m.insert key value).mapValues f :=
  eq_of_pairs (putPair_map f key value m.pairs)

end

end KeyValues

end MacroDeck
