/-!
# Attributes of a tag

Key and value pairs in the order in which their keys first occur; no key occurs twice.

* `Attributes.insert`: a new key goes to the end, a known key keeps its place and takes the value.
* `Attributes.ofList`: a list of pairs inserted one after the other.
-/

namespace LayeredTags

/-- Replaces the value of a key in place, or appends the pair. -/
def insertPair (key value : String) : List (String × String) → List (String × String)
  | [] => [(key, value)]
  | (k, v) :: rest => if k = key then (k, value) :: rest else (k, v) :: insertPair key value rest

theorem mem_keys_insertPair {key value k : String} {pairs : List (String × String)} :
    k ∈ (insertPair key value pairs).map Prod.fst ↔ k = key ∨ k ∈ pairs.map Prod.fst := by
  induction pairs with
  | nil => simp [insertPair]
  | cons pair rest ih =>
    obtain ⟨k', v⟩ := pair
    simp only [insertPair]
    split
    · rename_i h
      subst h
      simp
    · simp only [List.map_cons, List.mem_cons, ih]
      constructor
      · rintro (h | h | h) <;> simp [h]
      · rintro (h | h | h) <;> simp [h]

theorem nodup_insertPair {key value : String} {pairs : List (String × String)}
    (h : (pairs.map Prod.fst).Nodup) : ((insertPair key value pairs).map Prod.fst).Nodup := by
  induction pairs with
  | nil => simp [insertPair]
  | cons pair rest ih =>
    obtain ⟨k, v⟩ := pair
    simp only [List.map_cons, List.nodup_cons] at h
    simp only [insertPair]
    split
    · simpa using h
    · rename_i hne
      simp only [List.map_cons, List.nodup_cons, mem_keys_insertPair]
      exact ⟨fun hmem => hmem.elim hne h.1, ih h.2⟩

/-- The attributes of a tag, each key once. -/
structure Attributes where
  pairs : List (String × String)
  distinct : (pairs.map Prod.fst).Nodup
  deriving DecidableEq

namespace Attributes

def empty : Attributes := ⟨[], List.nodup_nil⟩

instance : Inhabited Attributes := ⟨empty⟩

instance : EmptyCollection Attributes := ⟨empty⟩

instance : Repr Attributes := ⟨fun a n => reprPrec a.pairs n⟩

def insert (a : Attributes) (key value : String) : Attributes :=
  ⟨insertPair key value a.pairs, nodup_insertPair a.distinct⟩

/-- Inserts the pairs in order, so that the last value of a key counts. -/
def ofList (pairs : List (String × String)) : Attributes :=
  pairs.foldl (fun a pair => a.insert pair.1 pair.2) empty

def get? (a : Attributes) (key : String) : Option String :=
  a.pairs.lookup key

def contains (a : Attributes) (key : String) : Bool :=
  (a.get? key).isSome

def keys (a : Attributes) : List String :=
  a.pairs.map Prod.fst

def size (a : Attributes) : Nat :=
  a.pairs.length

def isEmpty (a : Attributes) : Bool :=
  a.pairs.isEmpty

@[simp] theorem pairs_insert (a : Attributes) (key value : String) :
    (a.insert key value).pairs = insertPair key value a.pairs := rfl

end Attributes

end LayeredTags
