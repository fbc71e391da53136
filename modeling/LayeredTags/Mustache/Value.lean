import LayeredTags.Json.Value

/-!
# What a template makes of values

* `Mustache.counts`: whether a condition on a value holds.
* `Mustache.valueText`: the text of a value; objects have no text of their own.
* `Mustache.order?`, `Mustache.valueSize`, `Mustache.memberAt?`: the order of two values, the size
  of one, and its members.
-/

namespace LayeredTags.Mustache

/-- Whether a condition on the value holds. -/
def counts : Json → Bool
  | .null => false
  | .bool b => b
  | .number n => n.counts
  | .string s => s ≠ ""
  | .array items => !items.isEmpty
  | .object fields => !fields.isEmpty

/-- Whether a condition on a value that may be missing holds. -/
def isShown (value? : Option Json) : Bool :=
  value?.any counts

mutual

def valueText : Json → String
  | .null => ""
  | .bool b => if b then "true" else "false"
  | .number n => n.text
  | .string s => s
  | .array items => "[" ++ itemsText items ++ "]"
  | .object _ => "[object]"

def itemsText : List Json → String
  | [] => ""
  | [item] => valueText item
  | item :: rest => valueText item ++ ", " ++ itemsText rest

end

/-- The order of two values of the same kind that have one. -/
def order? : Json → Json → Option Ordering
  | .number a, .number b => some (a.order b)
  | .string a, .string b => some (compare a b)
  | .bool a, .bool b => some (compare a b)
  | _, _ => none

/-- The size of a value; that of a string is in bytes. -/
def valueSize : Json → Nat
  | .array items => items.length
  | .object fields => fields.length
  | .string s => s.utf8ByteSize
  | .null | .bool _ | .number _ => 0

/-- The item of an array at a number, or the field of an object of a name. -/
def memberAt? : Json → Json → Option Json
  | .array items, .number (.natural n) => items[n]?
  | .object fields, .string name => fields.lookup name
  | _, _ => none

end LayeredTags.Mustache
