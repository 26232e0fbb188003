import MacroDeck.Proofs.KeyValues.Merge
import MacroDeck.Proofs.Writes
import Mathlib.Data.Finset.Card

namespace MacroDeck.KeyValues

section

variable {inserted inserted' : List (String × String)}

/-- The value of the key's last insertion, if it was inserted. -/
def lastInserted? (inserted : List (String × String)) (key : String) : Option String :=
  (lastWrite? Prod.fst inserted key).map Prod.snd

theorem keys_ofList (inserted : List (String × String)) : (ofList inserted).keys = keysWritten Prod.fst inserted := by
  induction inserted using List.reverseRecOn with
  | nil => rfl
  | append_singleton inserted pair ih => rw [ofList_concat, keys_insert, ih, keysWritten_concat]

theorem get?_ofList (inserted : List (String × String)) (key : String) :
    (ofList inserted).get? key = lastInserted? inserted key := by
  induction inserted using List.reverseRecOn with
  | nil => rfl
  | append_singleton inserted pair ih =>
    rw [ofList_concat, get?_insert, ih, lastInserted?, lastInserted?, lastWrite?_concat]
    split <;> rfl

theorem size_eq_card (m : KeyValues) : m.size = m.keys.toFinset.card := by
  rw [keys, List.toFinset_card_of_nodup m.distinct, List.length_map]
  rfl

theorem size_ofList (inserted : List (String × String)) :
    (ofList inserted).size = (inserted.map Prod.fst).toFinset.card := by
  have keys : (ofList inserted).keys.toFinset = (inserted.map Prod.fst).toFinset :=
    List.toFinset.ext fun key => by rw [keys_ofList, keysWritten, List.mem_eraseDups]
  rw [size_eq_card, keys]

/-- The pairs are the keys in their order, each with what the map holds for it. -/
theorem pairs_eq_keys (m : KeyValues) :
    m.pairs.map (fun pair => (pair.1, some pair.2)) = m.keys.map fun key => (key, m.get? key) := by
  rw [keys, List.map_map]
  refine List.map_congr_left fun pair hp => ?_
  rw [Function.comp_apply, mem_pairs_iff.mp hp]

theorem ofList_eq_iff :
    ofList inserted = ofList inserted' ↔
      keysWritten Prod.fst inserted = keysWritten Prod.fst inserted' ∧
        ∀ key, lastInserted? inserted key = lastInserted? inserted' key := by
  simp only [← keys_ofList, ← get?_ofList]
  constructor
  · intro same
    rw [same]
    exact ⟨rfl, fun _ => rfl⟩
  · rintro ⟨keys, values⟩
    exact ext_get? keys values

end

/-- Insertions into the empty map leave one place for each key inserted, in the order of the first insertions, and there
the value of the key's last insertion. They come to one map just when they agree in that order and these values. -/
theorem insertions_tell_map :
    (∀ inserted : List (String × String),
      let m := ofList inserted
      m.keys.Nodup ∧
      m.keys = keysWritten Prod.fst inserted ∧
      (∀ key, key ∈ m.keys ↔ ∃ value, (key, value) ∈ inserted) ∧
      (m.keys.Pairwise fun key later => firstWrite Prod.fst inserted key < firstWrite Prod.fst inserted later) ∧
      (∀ key, m.get? key = lastInserted? inserted key) ∧
      m.size = (inserted.map Prod.fst).toFinset.card ∧
      m.pairs.map (fun pair => (pair.1, some pair.2)) = (m.keys.map fun key => (key, m.get? key)) ∧
      ∀ key value, (key, value) ∈ m.pairs ↔ m.get? key = some value) ∧
    ∀ inserted inserted' : List (String × String),
      ofList inserted = ofList inserted' ↔
        keysWritten Prod.fst inserted = keysWritten Prod.fst inserted' ∧
          ∀ key, lastInserted? inserted key = lastInserted? inserted' key := by
  refine ⟨fun inserted => ⟨(ofList inserted).distinct, keys_ofList inserted, fun key => ?_, ?_,
    get?_ofList inserted, size_ofList inserted, pairs_eq_keys _, fun key value => mem_pairs_iff⟩,
    fun inserted inserted' => ofList_eq_iff⟩
  · rw [keys_ofList, mem_keysWritten]
    simp
  · rw [keys_ofList]
    exact keysWritten_ordered Prod.fst inserted

end MacroDeck.KeyValues
