/-!
# Helpers

A helper is called by its name. A section helper decides about the text between its opening and its
closing mustache; a value helper computes a value.

* `Mustache.Helper`: the helpers that there are.
* `Mustache.Helper.ofName?`: the helper of a name.
-/

namespace LayeredTags.Mustache

inductive Helper where
  /-- a section that is shown if a value counts -/
  | condition
  /-- a section that is shown if a value does not count -/
  | negation
  /-- a section that is shown for every item of a value -/
  | loop
  /-- a section that is shown inside a value that counts -/
  | focus
  /-- a section that is shown as it is -/
  | content
  /-- a note that is not shown -/
  | note
  /-- the member of an array or object -/
  | member
  /-- whether two values are the same -/
  | same
  /-- whether two values differ -/
  | different
  /-- whether the first of two values is the greater one -/
  | above
  /-- whether the first of two values is the greater one or of equal rank -/
  | atLeast
  /-- whether the first of two values is the smaller one -/
  | below
  /-- whether the first of two values is the smaller one or of equal rank -/
  | atMost
  /-- whether all values count -/
  | all
  /-- whether some value counts -/
  | any
  /-- whether a value does not count -/
  | opposite
  /-- the size of an array, object or string -/
  | size
  deriving DecidableEq, Repr, Inhabited

namespace Helper

def name : Helper → String
  | condition => "if"
  | negation => "unless"
  | loop => "each"
  | focus => "with"
  | content => "raw"
  | note => "log"
  | member => "lookup"
  | same => "eq"
  | different => "ne"
  | above => "gt"
  | atLeast => "gte"
  | below => "lt"
  | atMost => "lte"
  | all => "and"
  | any => "or"
  | opposite => "not"
  | size => "len"

def everyHelper : List Helper :=
  [condition, negation, loop, focus, content, note, member, same, different, above, atLeast, below,
    atMost, all, any, opposite, size]

def ofName? (name : String) : Option Helper :=
  everyHelper.find? (·.name = name)

end Helper

end LayeredTags.Mustache
