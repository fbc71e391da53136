import LayeredTags.Mustache.Helper.Basic
import LayeredTags.Mustache.Scope
import LayeredTags.Mustache.Value

/-!
# What value helpers compute

* `Mustache.Helper.result`: the value that a helper computes from its arguments.

Arguments beyond those that a helper needs are ignored.
-/

namespace LayeredTags.Mustache

/-- A value that a helper needs; in strict mode it must be there. -/
def needed (strict : Bool) : Option Json → Except RenderError Json
  | some value => .ok value
  | none => if strict then .error .missing else .ok .null

namespace Helper

/-- The truth value that a helper gives to two values. -/
def compares? : Helper → Option (Json → Json → Bool)
  | same => some fun a b => a == b
  | different => some fun a b => a != b
  | above => some fun a b => order? a b == some .gt
  | atLeast => some fun a b => (order? a b).any (· != .lt)
  | below => some fun a b => order? a b == some .lt
  | atMost => some fun a b => (order? a b).any (· != .gt)
  | _ => none

/-- What a value helper computes from its arguments. -/
def result (strict : Bool) (helper : Helper) (values : List (Option Json)) :
    Except RenderError (Option Json) :=
  match helper, values with
  | all, values => .ok (some (.bool (values.all isShown)))
  | any, values => .ok (some (.bool (values.any isShown)))
  | opposite, value? :: _ => do
    let value ← needed strict value?
    return some (.bool (!counts value))
  | size, value? :: _ => do
    let value ← needed strict value?
    return some (.number (.natural (valueSize value)))
  | member, whole? :: key? :: _ => .ok (memberAt? (whole?.getD .null) (key?.getD .null))
  | helper, first? :: second? :: _ =>
    match helper.compares? with
    | some holds => do
      let first ← needed strict first?
      let second ← needed strict second?
      return some (.bool (holds first second))
    | none => .ok none
  | _, _ => .error .missingArgument

end Helper

end LayeredTags.Mustache
