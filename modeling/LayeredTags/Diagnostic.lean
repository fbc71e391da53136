/-!
# Mistakes that a compilation recovers from

* `Diagnostic`: the kind of a mistake and the tag it is about.
* `Diagnostic.message`: its wording.
-/

namespace LayeredTags

inductive DiagnosticKind where
  /-- a block without its close marker -/
  | unclosedBlock
  /-- a close marker that does not name the innermost open block -/
  | mismatchedCloseTag
  /-- a block that no callback is registered for -/
  | unknownBlockTag
  /-- a value that no callback is registered for -/
  | unknownValueTag
  /-- a call of the parent where no less specific body is left -/
  | parentWithoutLayer
  deriving DecidableEq, Repr, Inhabited

namespace DiagnosticKind

def all : List DiagnosticKind :=
  [unclosedBlock, mismatchedCloseTag, unknownBlockTag, unknownValueTag, parentWithoutLayer]

def name : DiagnosticKind → String
  | unclosedBlock => "UnclosedBlock"
  | mismatchedCloseTag => "MismatchedCloseTag"
  | unknownBlockTag => "UnknownBlockTag"
  | unknownValueTag => "UnknownValueTag"
  | parentWithoutLayer => "ParentWithoutLayer"

def ofName? (text : String) : Option DiagnosticKind :=
  all.find? (·.name == text)

def wording : DiagnosticKind → String
  | unclosedBlock => "unclosed block"
  | mismatchedCloseTag => "mismatched close tag"
  | unknownBlockTag => "unknown block tag"
  | unknownValueTag => "unknown value tag"
  | parentWithoutLayer => "parent call without a parent layer"

theorem ofName?_name (kind : DiagnosticKind) : ofName? kind.name = some kind := by
  cases kind <;> decide

end DiagnosticKind

/-- A mistake in a template and the tag it is about. -/
structure Diagnostic where
  kind : DiagnosticKind
  tag : String
  deriving DecidableEq, Repr, Inhabited

def Diagnostic.message (d : Diagnostic) : String :=
  d.kind.wording ++ " '" ++ d.tag ++ "'"

end LayeredTags
