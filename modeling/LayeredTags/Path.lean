/-!
# Paths

A path is a text. Two paths that spell the same components name the same place, although their
texts differ; output always shows the text.

* `Path.components`: the parts that count when paths are compared.
* `Path.Same`, `Path.Under`: equality and containment by components.
* `Path.join`: a file name below a directory.
* `Path.steps`: the parts that are followed one by one when the path is looked up on a disk.
-/

namespace LayeredTags

/-- A path, relative or absolute, as it is written. -/
structure Path where
  text : String
  deriving DecidableEq, Repr, Inhabited

/-- A part of a path that counts when paths are compared. -/
inductive Component where
  /-- the leading slash -/
  | root
  /-- a leading dot -/
  | here
  /-- two dots -/
  | up
  | name (text : String)
  deriving DecidableEq, Repr

namespace Path

/-- The pieces between slashes, empty ones included. -/
def slashPieces : List Char → List (List Char)
  | [] => [[]]
  | c :: cs =>
    if c = '/' then [] :: slashPieces cs
    else
      match slashPieces cs with
      | [] => [[c]]
      | piece :: pieces => (c :: piece) :: pieces

/-- The component that a piece stands for; empty pieces and dots stand for none. -/
def component? : List Char → Option Component
  | [] => none
  | ['.'] => none
  | ['.', '.'] => some .up
  | piece => some (.name (String.ofList piece))

/-- The components of a text: repeated and trailing slashes vanish, and so does a dot unless the
path starts with it. -/
def componentsOf (cs : List Char) : List Component :=
  match slashPieces cs with
  | [] => []
  | [] :: second :: rest => .root :: (second :: rest).filterMap component?
  | ['.'] :: rest => .here :: rest.filterMap component?
  | pieces => pieces.filterMap component?

def components (p : Path) : List Component :=
  componentsOf p.text.toList

def Same (p q : Path) : Prop :=
  p.components = q.components

instance (p q : Path) : Decidable (Same p q) :=
  inferInstanceAs (Decidable (_ = _))

/-- The lists have equal length and the same paths in order. -/
def SameList (ps qs : List Path) : Prop :=
  ps.map components = qs.map components

instance (ps qs : List Path) : Decidable (SameList ps qs) :=
  inferInstanceAs (Decidable (_ = _))

/-- The components of the directory come first in those of the path. -/
def Under (p dir : Path) : Prop :=
  dir.components <+: p.components

instance (p dir : Path) : Decidable (Under p dir) :=
  inferInstanceAs (Decidable (_ <+: _))

def isAbsolute (p : Path) : Bool :=
  p.text.toList.head? == some '/'

/-- The path of a file below a directory. An absolute file name stands for itself, and a slash is
put between the two unless the directory is empty or ends in one. -/
def join (dir : Path) (file : String) : Path :=
  if file.toList.head? = some '/' then ⟨file⟩
  else if dir.text.toList = [] ∨ dir.text.toList.getLast? = some '/' then ⟨dir.text ++ file⟩
  else ⟨dir.text ++ "/" ++ file⟩

/-- The pieces of the path that are followed on a disk, dots included. -/
def steps (p : Path) : List String :=
  ((slashPieces p.text.toList).filter (· ≠ [])).map String.ofList

def endsInSlash (p : Path) : Bool :=
  p.text.toList.getLast? == some '/'

/-- What follows the last dot of a file name, unless that dot is its first character. -/
def extension? (name : String) : Option String :=
  let reversed := name.toList.reverse
  match reversed.dropWhile (· ≠ '.') with
  | [] => none
  | ['.'] => none
  | _ => some (String.ofList (reversed.takeWhile (· ≠ '.')).reverse)

theorem Same.refl (p : Path) : Same p p := rfl

theorem SameList.refl (ps : List Path) : SameList ps ps := rfl

theorem SameList.symm {ps qs : List Path} (h : SameList ps qs) : SameList qs ps := Eq.symm h

theorem SameList.trans {ps qs rs : List Path} (h : SameList ps qs) (h' : SameList qs rs) :
    SameList ps rs := Eq.trans h h'

end Path

end LayeredTags
