/-!
# Why a JSON text is refused

* `Json.Fault`: the three kinds of reasons.
* `Json.Break`: the reasons why a text stops inside a value.
-/

namespace LayeredTags.Json

/-- Why a JSON text is refused. -/
inductive Fault where
  /-- it is not JSON, or goes on behind its value -/
  | malformed
  /-- it is JSON, but not of the shape that is asked for -/
  | mismatched
  /-- it ends too early -/
  | truncated
  deriving DecidableEq, Repr, Inhabited

def Fault.message : Fault → String
  | malformed => "malformed text"
  | mismatched => "unexpected data"
  | truncated => "unexpected end of text"

/-- A place at which a text stops being JSON. A reader that passes over a value does not look at
what the value means, and a reader that asks for a name looks at nothing but its first character,
so they may have other reasons to refuse the text than a reader that asks for the value. -/
structure Break where
  /-- the reason of a reader that asks for the value -/
  asked : Fault
  /-- the reason of a reader that passes over the value -/
  passed : Fault
  /-- the reason of a reader that asks for a name -/
  named : Fault
  deriving DecidableEq, Repr, Inhabited

/-- A place that every reader refuses for the same reason. -/
def Break.plain (fault : Fault) : Break := ⟨fault, fault, fault⟩

end LayeredTags.Json
