import Mathlib.Data.List.FinRange
import Mathlib.Data.List.Induction
import Mathlib.Data.List.Sort

namespace MacroDeck

section

variable {α κ : Type} [DecidableEq κ]

/-- How many writes come before the first one of the key. -/
def firstWrite (keyOf : α → κ) (writes : List α) (key : κ) : Nat :=
  (writes.map keyOf).idxOf key

/-- The keys that are written, in the order of their first writes. -/
def keysWritten (keyOf : α → κ) (writes : List α) : List κ :=
  (writes.map keyOf).eraseDups

/-- The last write of the key, if there is one. -/
def lastWrite? (keyOf : α → κ) (writes : List α) (key : κ) : Option α :=
  (writes.filter (keyOf · = key)).getLast?

/-- The writes in another order, each at the place that it is given. -/
def moved (writes : List α) (place : Equiv.Perm (Fin writes.length)) : List α :=
  List.ofFn fun i => writes[place.symm i]

/-- Of two writes of one key the earlier one stays before the later one. -/
def KeepsTurns (keyOf : α → κ) (writes : List α) (place : Equiv.Perm (Fin writes.length)) : Prop :=
  ∀ earlier later, earlier < later → keyOf writes[earlier] = keyOf writes[later] → place earlier < place later

instance (keyOf : α → κ) (writes : List α) (place : Equiv.Perm (Fin writes.length)) :
    Decidable (KeepsTurns keyOf writes place) :=
  inferInstanceAs (Decidable (∀ _ _, _))

section

variable {keyOf : α → κ} {writes : List α} {write : α} {key : κ}

theorem mem_keysWritten : key ∈ keysWritten keyOf writes ↔ ∃ write ∈ writes, keyOf write = key :=
  List.mem_eraseDups.trans List.mem_map

theorem keysWritten_concat (keyOf : α → κ) (writes : List α) (write : α) :
    keysWritten keyOf (writes ++ [write]) =
      if keyOf write ∈ keysWritten keyOf writes then keysWritten keyOf writes
      else keysWritten keyOf writes ++ [keyOf write] := by
  unfold keysWritten
  rw [List.map_append, List.eraseDups_append]
  split
  next old =>
    have among : keyOf write ∈ writes.map keyOf := List.mem_eraseDups.mp old
    rw [List.map_singleton, List.removeAll, List.filter_cons_of_neg (by simpa using among)]
    exact List.append_nil _
  next new =>
    have notAmong : keyOf write ∉ writes.map keyOf := mt List.mem_eraseDups.mpr new
    rw [List.map_singleton, List.removeAll, List.filter_cons_of_pos (by simpa using notAmong)]
    rfl

/-- A further write comes after all others, so it is the first of no key that has one. -/
theorem firstWrite_concat (written : key ∈ keysWritten keyOf writes) (write : α) :
    firstWrite keyOf (writes ++ [write]) key = firstWrite keyOf writes key ∧
      firstWrite keyOf writes key < writes.length := by
  have among : key ∈ writes.map keyOf := List.mem_eraseDups.mp written
  refine ⟨?_, ?_⟩
  · rw [firstWrite, List.map_append, List.idxOf_append_of_mem among]
    rfl
  · simpa [firstWrite] using List.idxOf_lt_length_iff.mpr among

theorem firstWrite_concat_new (new : keyOf write ∉ keysWritten keyOf writes) :
    firstWrite keyOf (writes ++ [write]) (keyOf write) = writes.length := by
  have notBefore : keyOf write ∉ writes.map keyOf := mt List.mem_eraseDups.mpr new
  rw [firstWrite, List.map_append, List.idxOf_append_of_notMem notBefore]
  simp

theorem keysWritten_ordered (keyOf : α → κ) (writes : List α) :
    (keysWritten keyOf writes).Pairwise fun key later => firstWrite keyOf writes key < firstWrite keyOf writes later := by
  induction writes using List.reverseRecOn with
  | nil => exact .nil
  | append_singleton writes write ih =>
    have before : (keysWritten keyOf writes).Pairwise fun key later =>
        firstWrite keyOf (writes ++ [write]) key < firstWrite keyOf (writes ++ [write]) later := by
      refine ih.imp_of_mem fun {key later} hk hl below => ?_
      rwa [(firstWrite_concat hk write).1, (firstWrite_concat hl write).1]
    rw [keysWritten_concat]
    split
    next => exact before
    next new =>
      refine List.pairwise_append.mpr ⟨before, List.pairwise_singleton _ _, fun key hk later hl => ?_⟩
      obtain rfl := List.mem_singleton.mp hl
      obtain ⟨same, bound⟩ := firstWrite_concat hk write
      rw [same, firstWrite_concat_new new]
      exact bound

theorem lastWrite?_concat (keyOf : α → κ) (writes : List α) (write : α) (key : κ) :
    lastWrite? keyOf (writes ++ [write]) key =
      if key = keyOf write then some write else lastWrite? keyOf writes key := by
  rw [lastWrite?, List.filter_append]
  split
  next same => simp [same]
  next other => simp [lastWrite?, Ne.symm other]

theorem isSome_lastWrite?_iff : (lastWrite? keyOf writes key).isSome ↔ key ∈ writes.map keyOf := by
  rw [lastWrite?, Option.isSome_iff_ne_none, Ne, List.getLast?_eq_none_iff, List.filter_eq_nil_iff]
  simp

section

variable {place : Equiv.Perm (Fin writes.length)}

/-- The old places of the writes of a key, taken in the new order, still ascend. -/
theorem KeepsTurns.ascending (keeps : KeepsTurns keyOf writes place) (key : κ) :
    (((List.finRange writes.length).map place.symm).filter fun i => keyOf writes[i] = key).Pairwise (· < ·) := by
  rw [List.pairwise_filter, List.pairwise_map]
  refine (List.pairwise_lt_finRange _).imp fun {i j} below hi hj => ?_
  have oneKey : keyOf writes[place.symm j] = keyOf writes[place.symm i] :=
    (of_decide_eq_true hj).trans (of_decide_eq_true hi).symm
  rcases lt_trichotomy (place.symm i) (place.symm j) with before | same | after
  · exact before
  · exact absurd (place.symm.injective same) below.ne
  · have turned := keeps _ _ after oneKey
    rw [Equiv.apply_symm_apply, Equiv.apply_symm_apply] at turned
    exact absurd below turned.asymm

theorem KeepsTurns.places (keeps : KeepsTurns keyOf writes place) (key : κ) :
    (((List.finRange writes.length).map place.symm).filter fun i => keyOf writes[i] = key) =
      (List.finRange writes.length).filter fun i => keyOf writes[i] = key :=
  List.Perm.eq_of_pairwise' (keeps.ascending key) ((List.pairwise_lt_finRange _).filter _)
    ((Equiv.Perm.map_finRange_perm place.symm).filter _)

theorem KeepsTurns.filter_moved (keeps : KeepsTurns keyOf writes place) (key : κ) :
    (moved writes place).filter (keyOf · = key) = writes.filter (keyOf · = key) :=
  calc (moved writes place).filter (keyOf · = key)
    _ = (((List.finRange writes.length).map place.symm).map (writes[·])).filter (keyOf · = key) := by
      rw [moved, List.ofFn_eq_map, List.map_map]
      rfl
    _ = (((List.finRange writes.length).map place.symm).filter fun i => keyOf writes[i] = key).map (writes[·]) :=
      List.filter_map
    _ = ((List.finRange writes.length).filter fun i => keyOf writes[i] = key).map (writes[·]) := by
      rw [keeps.places]
    _ = ((List.finRange writes.length).map (writes[·])).filter (keyOf · = key) := by
      rw [List.filter_map]
      rfl
    _ = writes.filter (keyOf · = key) :=
      congrArg (List.filter _) (List.map_getElem_finRange writes)

/-- Moving writes that keep their turns leaves the last write of each key what it was. -/
theorem KeepsTurns.lastWrite?_moved (keeps : KeepsTurns keyOf writes place) (key : κ) :
    lastWrite? keyOf (moved writes place) key = lastWrite? keyOf writes key := by
  rw [lastWrite?, lastWrite?, keeps.filter_moved]

end

end

end

end MacroDeck
