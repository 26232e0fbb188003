namespace MacroDeck

/-- The pairs with the key given the value: a key already there keeps its place, a new one comes last. -/
def putPair (key value : String) : List (String × String) → List (String × String)
  | [] => [(key, value)]
  | (k, v) :: rest => if k = key then (key, value) :: rest else (k, v) :: putPair key value rest

theorem putPair_keys (key value : String) (pairs : List (String × String)) :
    (putPair key value pairs).map Prod.fst =
      if key ∈ pairs.map Prod.fst then pairs.map Prod.fst else pairs.map Prod.fst ++ [key] := by
  induction pairs with
  | nil => simp [putPair]
  | cons pair rest ih =>
    obtain ⟨k, v⟩ := pair
    by_cases h : k = key
    · simp [putPair, h]
    · have h' : key ≠ k := fun e => h e.symm
      simp only [putPair, if_neg h, List.map_cons, ih, List.mem_cons, h', false_or]
      split <;> simp

/-- A map from keys to values that remembers the order of its keys. -/
structure KeyValues where
  pairs : List (String × String) := []
  distinct : (pairs.map Prod.fst).Nodup := by decide
deriving DecidableEq

namespace KeyValues

def empty : KeyValues := {}

def keys (m : KeyValues) : List String :=
  m.pairs.map Prod.fst

def insert (m : KeyValues) (key value : String) : KeyValues where
  pairs := putPair key value m.pairs
  distinct := by
    rw [putPair_keys]
    split
    · exact m.distinct
    · rename_i fresh
      refine List.nodup_append.mpr ⟨m.distinct, by simp, ?_⟩
      intro a ha b hb
      have : b = key := by simpa using hb
      exact fun e => fresh (this ▸ e ▸ ha)

/-- The pairs inserted one after the other. -/
def ofList (pairs : List (String × String)) : KeyValues :=
  pairs.foldl (fun m pair => m.insert pair.1 pair.2) empty

def get? (m : KeyValues) (key : String) : Option String :=
  m.pairs.lookup key

def size (m : KeyValues) : Nat :=
  m.pairs.length

def isEmpty (m : KeyValues) : Bool :=
  m.pairs.isEmpty

end KeyValues

end MacroDeck
