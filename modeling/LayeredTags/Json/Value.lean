import LayeredTags.Json.Draft

/-!
# JSON values

* `Json`: a value; the fields of an object are pairs in order.
* `Json.print`: the compact text of a value.
* `Json.read`: the value of a text, with the fields of every object sorted by their names.
-/

namespace LayeredTags

open Json (Number Draft Fault)

/-- A JSON value. -/
inductive Json where
  | null
  | bool (b : Bool)
  | number (n : Number)
  | string (s : String)
  | array (items : List Json)
  | object (fields : List (String × Json))
  deriving Inhabited, Repr, BEq

namespace Json

/-! ## Writing -/

def hexUnit (n : Nat) : List Char :=
  let digits := Nat.toDigits 16 n
  List.replicate (4 - digits.length) '0' ++ digits

/-- A character inside a string: only quotes, backslashes and controls are escaped. -/
def escapeChar (c : Char) : List Char :=
  match c with
  | '"' => ['\\', '"']
  | '\\' => ['\\', '\\']
  | '\x08' => ['\\', 'b']
  | '\x0c' => ['\\', 'f']
  | '\n' => ['\\', 'n']
  | '\r' => ['\\', 'r']
  | '\t' => ['\\', 't']
  | c => if c.toNat < 0x20 then ['\\', 'u'] ++ hexUnit c.toNat else [c]

def quote (s : String) : List Char :=
  '"' :: s.toList.flatMap escapeChar ++ ['"']

def word (b : Bool) : List Char :=
  if b then ['t', 'r', 'u', 'e'] else ['f', 'a', 'l', 's', 'e']

mutual

def chars : Json → List Char
  | null => ['n', 'u', 'l', 'l']
  | bool b => word b
  | number n => n.text.toList
  | string s => quote s
  | array items => '[' :: charsOfItems items ++ [']']
  | object fields => '\x7b' :: charsOfFields fields ++ ['\x7d']

def charsOfItems : List Json → List Char
  | [] => []
  | [item] => chars item
  | item :: rest => chars item ++ ',' :: charsOfItems rest

def charsOfFields : List (String × Json) → List Char
  | [] => []
  | [(name, value)] => quote name ++ ':' :: chars value
  | (name, value) :: rest => quote name ++ ':' :: chars value ++ ',' :: charsOfFields rest

end

def print (j : Json) : String :=
  String.ofList j.chars

/-! ## Reading -/

/-- Puts a field among sorted ones, in place of an earlier one of its name. -/
def putField (name : String) (value : Json) : List (String × Json) → List (String × Json)
  | [] => [(name, value)]
  | (n, v) :: rest =>
    if name < n then (name, value) :: (n, v) :: rest
    else if n = name then (n, value) :: rest
    else (n, v) :: putField name value rest

def nameOf : Draft → Except Fault String
  | .string text => text
  | .broken place => .error place.asked
  | _ => .error .malformed

mutual

/-- The value of a draft. An array or object inside `depth` others or more is refused. -/
def ofDraft (depth : Nat) : Draft → Except Fault Json
  | .null => .ok .null
  | .bool b => .ok (.bool b)
  | .number n =>
    match n.number? with
    | some n => .ok (.number n)
    | none => .error .malformed
  | .string text => text.map .string
  | .array items fault =>
    match depth with
    | 0 => .error .malformed
    | depth + 1 => do
      let items ← ofItems depth items
      match fault with
      | some fault => .error fault
      | none => .ok (.array items)
  | .object fields fault =>
    match depth with
    | 0 => .error .malformed
    | depth + 1 => do
      let fields ← ofFields depth [] fields
      match fault with
      | some fault => .error fault
      | none => .ok (.object fields)
  | .broken place => .error place.asked

def ofItems (depth : Nat) : List Draft → Except Fault (List Json)
  | [] => .ok []
  | item :: rest => do
    let item ← ofDraft depth item
    let rest ← ofItems depth rest
    return item :: rest

/-- The fields of an object added to sorted ones; the last field of a name counts. -/
def ofFields (depth : Nat) (sorted : List (String × Json)) :
    List (Draft × Draft) → Except Fault (List (String × Json))
  | [] => .ok sorted
  | (name, value) :: rest => do
    let name ← nameOf name
    let value ← ofDraft depth value
    ofFields depth (putField name value sorted) rest

end

/-- How many arrays and objects may stand inside each other. -/
def nestingLimit : Nat := 127

def read (content : Content) : Except Fault Json :=
  readWith (ofDraft nestingLimit) content

def field? (name : String) : Json → Option Json
  | object fields => fields.lookup name
  | _ => none

end Json

end LayeredTags
