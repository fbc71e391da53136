import LayeredTags.Mustache.Tag

/-!
# Scopes

A template is rendered in a scope: a value, and variables if the scope belongs to a loop. Only loops
and focused sections open a scope; the scopes around it stay in reach.

* `Mustache.RenderError`: why a code is not rendered.
* `Mustache.Scope.resolve`, `Mustache.Scope.argument`: the value at a path and of an argument.
* `Mustache.Scope.inside`, `Mustache.Scope.turns?`: the scopes of a focused section and of the turns
  of a loop.
-/

namespace LayeredTags.Mustache

inductive RenderError where
  | malformed
  /-- a value is missing in strict mode -/
  | missing
  /-- a name that is no number is applied to an array -/
  | badIndex (name : String)
  /-- a helper that does not exist is called -/
  | unknownHelper
  /-- a helper is called with too few arguments -/
  | missingArgument
  deriving DecidableEq, Repr, Inhabited

def RenderError.message : RenderError → String
  | malformed => "malformed template"
  | missing => "missing value"
  | badIndex name => "invalid index '" ++ name ++ "'"
  | unknownHelper => "unknown helper"
  | missingArgument => "missing argument"

/-- A value and the variables of the loop around it. -/
structure Scope where
  value : Json
  locals : List (String × Json)

/-! ## Paths -/

/-- The index that a name spells. -/
def index? (name : String) : Option Nat :=
  let digits :=
    match name.toList with
    | '+' :: digits => digits
    | digits => digits
  if digits ≠ [] ∧ digits.all Char.isDigit then
    let n := digits.foldl (fun n c => n * 10 + (c.toNat - '0'.toNat)) 0
    if n < UInt64.size then some n else none
  else none

/-- Applies a name to a value: a field of an object, an item of an array, nothing of other
values. -/
def member (name : String) : Json → Except RenderError (Option Json)
  | .object fields => .ok (fields.lookup name)
  | .array items =>
    match index? name with
    | some n => .ok items[n]?
    | none => .error (.badIndex name)
  | .null | .bool _ | .number _ | .string _ => .ok none

/-- Follows names from a value that may be missing. -/
def follow : List String → Option Json → Except RenderError (Option Json)
  | [], value? => .ok value?
  | _ :: _, none => .ok none
  | name :: rest, some value => (member name value).bind (follow rest)

namespace Scope

/-- The scope that lies so many scopes further out. If there are not so many, it is the innermost
one. -/
def above (scopes : List Scope) (up : Nat) : Option Scope :=
  scopes[up]?.or scopes.head?

/-- The value at a path, if there is one. A variable is only sought in the scope that the path says,
and is missing if there are not so many scopes. -/
def resolve (scopes : List Scope) : ValuePath → Except RenderError (Option Json)
  | .scope up names => follow names ((above scopes up).map (·.value))
  | .outermost names => follow names (scopes.getLast?.map (·.value))
  | .loop up name => .ok (scopes[up]?.bind fun scope => scope.locals.lookup name)

def argument (scopes : List Scope) : Argument → Except RenderError (Option Json)
  | .value path => resolve scopes path
  | .constant value => .ok (some value)

/-! ## Opening scopes -/

/-- The scope inside a value, with the variables of the innermost loop. -/
def inside (scopes : List Scope) (value : Json) : Scope :=
  ⟨value, (scopes.head?.map (·.locals)).getD []⟩

/-- The variables of a turn of a loop. -/
def loopLocals (count index : Nat) (key? : Option String) : List (String × Json) :=
  [("index", .number (.natural index)), ("first", .bool (index == 0)),
    ("last", .bool (index + 1 == count))] ++
    (key?.map fun key => ("key", Json.string key)).toList

/-- The scopes of the turns of a loop over an array or object, in order. -/
def turns? : Json → Option (List Scope)
  | .array items =>
    some (items.mapIdx fun i value => ⟨value, loopLocals items.length i none⟩)
  | .object fields =>
    some (fields.mapIdx fun i field => ⟨field.2, loopLocals fields.length i (some field.1)⟩)
  | .null | .bool _ | .number _ | .string _ => none

end Scope

end LayeredTags.Mustache
