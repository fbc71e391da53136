import LayeredTags.Registry
import LayeredTags.Text.Alphanumeric
import LayeredTags.Text.Casing

/-!
# The core tags

The core tags emit mustache code. An attribute that names a value of the render context must be a
plain path; a tag whose attribute is missing or not plain emits nothing.

* `If`, `Unless`, `Each`, `With`: blocks around their children, with the path in `var`.
* `Comment`: a block that emits nothing.
* `Var`: the value at the path in `name`, or the text in `default` if it does not count.
* `Text`, `Upper`, `Lower`: the text in `value` as it is, in upper case and in lower case.
-/

namespace LayeredTags.CoreTags

def openBraces : String := "\x7b\x7b"

def closeBraces : String := "\x7d\x7d"

def mustache (code : String) : String :=
  openBraces ++ code ++ closeBraces

def isPathChar (c : Char) : Bool :=
  Text.isAlphanumeric c || c == '_' || c == '-' || c == '.' || c == '/' || c == '@' || c == '[' ||
    c == ']'

/-- The value of an attribute if it is a plain path. -/
def contextPath? (attributes : Attributes) (key : String) : Option String :=
  (attributes.get? key).filter fun path => !path.toList.isEmpty && path.toList.all isPathChar

/-- Puts a backslash before every double brace, from left to right. -/
def escapeChars : List Char → List Char
  | '{' :: '{' :: rest => '\\' :: '{' :: '{' :: escapeChars rest
  | c :: rest => c :: escapeChars rest
  | [] => []

def escape (text : String) : String :=
  String.ofList (escapeChars text.toList)

/-- A helper block around the children, if the path in `var` is plain. -/
def helperBlock (helper : String) (attributes : Attributes) (children : String) : String :=
  match contextPath? attributes "var" with
  | some path => mustache ("#" ++ helper ++ " " ++ path) ++ children ++ mustache ("/" ++ helper)
  | none => ""

/-- The value at the path in `name`, with the text in `default` as its alternative. -/
def contextValue (attributes : Attributes) : String :=
  match contextPath? attributes "name" with
  | none => ""
  | some path =>
    match attributes.get? "default" with
    | some default =>
      mustache ("#if " ++ path) ++ mustache path ++ mustache "else" ++ escape default ++
        mustache "/if"
    | none => mustache path

def literal (change : String → String) (attributes : Attributes) : String :=
  ((attributes.get? "value").map fun value => escape (change value)).getD ""

def definitions : List TagDefinition :=
  [⟨.block, "If", fun _ attributes children => helperBlock "if" attributes children⟩,
    ⟨.block, "Unless", fun _ attributes children => helperBlock "unless" attributes children⟩,
    ⟨.block, "Each", fun _ attributes children => helperBlock "each" attributes children⟩,
    ⟨.block, "With", fun _ attributes children => helperBlock "with" attributes children⟩,
    ⟨.block, "Comment", fun _ _ _ => ""⟩,
    ⟨.value, "Var", fun _ attributes _ => contextValue attributes⟩,
    ⟨.value, "Text", fun _ attributes _ => literal id attributes⟩,
    ⟨.value, "Upper", fun _ attributes _ => literal Text.upper attributes⟩,
    ⟨.value, "Lower", fun _ attributes _ => literal Text.lower attributes⟩]

def register (r : Registry) : Registry :=
  r.registerAll definitions

def registry : Registry :=
  register .empty

end LayeredTags.CoreTags
