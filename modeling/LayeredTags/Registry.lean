import LayeredTags.Attributes.Basic
import LayeredTags.Text.Quoted

/-!
# The tag registry

Block tags and value tags live in two separate namespaces. The last registration of a name counts.

* `TagTable`: the callbacks of one namespace.
* `Registry`: the two namespaces; `Registry.register` adds a definition to one of them.
-/

namespace LayeredTags

/-- What a tag emits, from its name, its attributes and a third text: the compiled children of a
block or the raw attributes of a value. -/
abbrev Callback := String → Attributes → String → String

/-- The two kinds of tags. -/
inductive TagKind where
  | block
  | value
  deriving DecidableEq, Repr, Inhabited

def TagKind.name : TagKind → String
  | block => "Block"
  | value => "Value"

/-- The callbacks of one namespace, each name once. -/
structure TagTable where
  entries : List (String × Callback)
  deriving Inhabited

namespace TagTable

def empty : TagTable := ⟨[]⟩

/-- Replaces the callback of a name in place, or appends it. -/
def put (name : String) (callback : Callback) :
    List (String × Callback) → List (String × Callback)
  | [] => [(name, callback)]
  | (n, old) :: rest =>
    if n = name then (n, callback) :: rest else (n, old) :: put name callback rest

def insert (t : TagTable) (name : String) (callback : Callback) : TagTable :=
  ⟨put name callback t.entries⟩

def get? (t : TagTable) (name : String) : Option Callback :=
  t.entries.lookup name

def contains (t : TagTable) (name : String) : Bool :=
  (t.get? name).isSome

def names (t : TagTable) : List String :=
  (t.entries.map Prod.fst).mergeSort fun a b => decide (a ≤ b)

theorem lookup_put (name n : String) (callback : Callback) (entries : List (String × Callback)) :
    (put name callback entries).lookup n =
      if n = name then some callback else entries.lookup n := by
  induction entries with
  | nil =>
    by_cases h : n = name
    · simp [put, h]
    · simp [put, h, List.lookup_cons, beq_eq_false_iff_ne.2 h]
  | cons entry rest ih =>
    obtain ⟨m, old⟩ := entry
    by_cases hm : m = name
    · subst hm
      by_cases h : n = m
      · simp [put, h]
      · simp [put, h, List.lookup_cons, beq_eq_false_iff_ne.2 h]
    · by_cases h : n = m
      · subst h
        simp [put, hm]
      · simp [put, hm, List.lookup_cons, beq_eq_false_iff_ne.2 h, ih]

theorem get?_insert (t : TagTable) (name n : String) (callback : Callback) :
    (t.insert name callback).get? n = if n = name then some callback else t.get? n :=
  lookup_put name n callback t.entries

end TagTable

/-- A tag that a library contributes. -/
structure TagDefinition where
  kind : TagKind
  name : String
  callback : Callback

def TagDefinition.describe (d : TagDefinition) : String :=
  "TagDefinition \x7b name: " ++ Text.quoted d.name ++ ", kind: " ++ d.kind.name ++ " \x7d"

/-- The callbacks of block tags and of value tags. -/
structure Registry where
  blocks : TagTable
  values : TagTable
  deriving Inhabited

namespace Registry

def empty : Registry := ⟨.empty, .empty⟩

/-- The namespace of a kind. -/
def table (r : Registry) : TagKind → TagTable
  | .block => r.blocks
  | .value => r.values

def block? (r : Registry) (name : String) : Option Callback :=
  r.blocks.get? name

/-- The value callback of a name. The tree never holds a value named as the parent call, so a
callback of that name is never used. -/
def value? (r : Registry) (name : String) : Option Callback :=
  r.values.get? name

/-- Adds a definition in place of an earlier one of its kind and name. -/
def register (r : Registry) (d : TagDefinition) : Registry :=
  match d.kind with
  | .block => { r with blocks := r.blocks.insert d.name d.callback }
  | .value => { r with values := r.values.insert d.name d.callback }

/-- Adds definitions one after the other. -/
def registerAll (r : Registry) (ds : List TagDefinition) : Registry :=
  ds.foldl register r

def describeNames (names : List String) : String :=
  "[" ++ ", ".intercalate (names.map Text.quoted) ++ "]"

def describe (r : Registry) : String :=
  "TagRegistry \x7b block_tags: " ++ describeNames r.blocks.names ++
    ", value_tags: " ++ describeNames r.values.names ++ " \x7d"

end Registry

end LayeredTags
