import LayeredTags.Path

/-!
# Candidate paths of a template

A logical name stands for one path in every theme directory. Names that are empty, absolute or
hold two dots as a component stand for none.

* `ThemeSettings.candidates`: the candidate paths of a name, the most specific first.
-/

namespace LayeredTags

/-- The theme directories, the most specific first, and the extension of template files. -/
structure ThemeSettings where
  directories : List Path
  extension : String
  deriving DecidableEq, Repr, Inhabited

def defaultExtension : String := "tpl"

/-- A component that leads neither up nor to the root. -/
def Component.isInner : Component → Bool
  | .name _ | .here => true
  | .root | .up => false

namespace ThemeSettings

/-- Whether a name stays below the directory that it is looked up in. -/
def isSafe (name : String) : Bool :=
  name ≠ "" && (Path.mk name).components.all Component.isInner

/-- The file name of a logical name: the extension is added unless the name ends in it. -/
def fileName (extension name : String) : String :=
  if extension = "" ∨ ('.' :: extension.toList) <:+ name.toList then name
  else name ++ "." ++ extension

def candidates (t : ThemeSettings) (name : String) : List Path :=
  if isSafe name then t.directories.map fun dir => dir.join (fileName t.extension name) else []

end ThemeSettings

end LayeredTags
