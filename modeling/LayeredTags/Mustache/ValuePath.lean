/-!
# Paths to values

A path names a value of the context: `title`, `post.tags`, `../list.[0]`, `@index`.

* `Mustache.Reader`: reads a beginning of a text and leaves the rest.
* `Mustache.ValuePath`: a path.
* `Mustache.ValuePath.read`: reads the longest path at the start of a text.
-/

namespace LayeredTags.Mustache

/-! ## Reading -/

/-- Reads a beginning of a text and leaves the rest, or finds nothing to read. -/
abbrev Reader (α : Type) := List Char → Option (α × List Char)

/-- Reads as often as there is something to read; a reading that takes no character ends the
list. -/
def many {α : Type} (read : Reader α) (cs : List Char) : List α × List Char :=
  match read cs with
  | some (a, rest) =>
    if rest.length < cs.length then
      let (others, rest) := many read rest
      (a :: others, rest)
    else ([], cs)
  | none => ([], cs)
termination_by cs.length

/-- A blank between the parts of a mustache. -/
def isBlank (c : Char) : Bool :=
  c == ' ' || c == '\t' || c == '\r' || c == '\n'

def skipBlanks (cs : List Char) : List Char :=
  cs.dropWhile isBlank

/-- A character of a name. -/
def isNameChar (c : Char) : Bool :=
  c.isAlphanum || c == '_' || c == '-' || c == '$' || c == ':' || 0x80 ≤ c.toNat

/-- Reads a name: as many name characters as there are, but at least one. -/
def readName : Reader String := fun cs =>
  match cs.takeWhile isNameChar with
  | [] => none
  | name => some (String.ofList name, cs.dropWhile isNameChar)

/-! ## Paths -/

/-- A path to a value. -/
inductive ValuePath where
  /-- names followed from the value of the scope that lies so many scopes further out -/
  | scope (up : Nat) (names : List String)
  /-- names followed from the value of the outermost scope -/
  | outermost (names : List String)
  /-- a variable of the loop whose scope lies so many scopes further out -/
  | loop (up : Nat) (name : String)
  deriving DecidableEq, Repr, Inhabited

namespace ValuePath

def isSeparator (c : Char) : Bool :=
  c == '.' || c == '/'

/-- Reads a name of a path. Between brackets a name may hold any character but the closing bracket,
and may be empty. -/
def readSegment : Reader String
  | '[' :: rest =>
    match rest.dropWhile (· ≠ ']') with
    | ']' :: after => some (String.ofList (rest.takeWhile (· ≠ ']')), after)
    | _ => none
  | cs => readName cs

/-- Reads a separator and the name behind it. -/
def readNext : Reader String
  | c :: rest => if isSeparator c then readSegment rest else none
  | [] => none

def readUp : Reader Unit
  | '.' :: '.' :: c :: rest => if isSeparator c then some ((), rest) else none
  | _ => none

/-- Reads a mark that the path starts at the value of the scope, which it does anyway. -/
def readCurrent : Reader Unit
  | '.' :: '/' :: rest => some ((), rest)
  | 't' :: 'h' :: 'i' :: 's' :: c :: rest => if isSeparator c then some ((), rest) else none
  | _ => none

/-- Reads a mark that the path starts at the outermost value. -/
def readRoot : Reader Unit
  | '@' :: 'r' :: 'o' :: 'o' :: 't' :: c :: rest =>
    if isSeparator c then some ((), rest) else none
  | _ => none

/-- Reads the mark of a variable of a loop. -/
def readLoop : Reader Unit
  | '@' :: rest => some ((), rest)
  | _ => none

/-- Whether a mark has been read, and the text behind it. -/
def mark (read : Reader Unit) (cs : List Char) : Bool × List Char :=
  match read cs with
  | some (_, rest) => (true, rest)
  | none => (false, cs)

/-- The path of the marks, steps and names that have been read. The name `this` stands for the
value that has been reached. Only the first name behind the mark of a variable counts. -/
def ofParts (isRoot isLoop : Bool) (up : Nat) (names : List String) : ValuePath :=
  match isRoot, isLoop, names.filter (· ≠ "this") with
  | true, _, names => .outermost names
  | false, true, name :: _ => .loop up name
  | false, true, [] => .scope 0 []
  | false, false, names => .scope up names

/-- Reads the longest path at the start of a text. -/
def read : Reader ValuePath := fun cs => do
  let (_, cs) := mark readCurrent cs
  let (isRoot, cs) := mark readRoot cs
  let (isLoop, cs) := mark readLoop cs
  let (ups, cs) := many readUp cs
  let (name, cs) ← readSegment cs
  let (names, cs) := many readNext cs
  return (ofParts isRoot isLoop ups.length (name :: names), cs)

end ValuePath

end LayeredTags.Mustache
