import LayeredTags.Json.Value
import LayeredTags.Mustache.Helper.Basic
import LayeredTags.Mustache.ValuePath

/-!
# What stands between braces

* `Mustache.Argument`: a path or a constant.
* `Mustache.Tag`: a value, a call of a helper, or the opening, alternative or end of a section.
* `Mustache.Tag.ofChars?`: the tag that a text between braces spells.
-/

namespace LayeredTags.Mustache

/-! ## Constants -/

def takeChar (c : Char) : List Char → List Char × List Char
  | d :: rest => if d = c then ([c], rest) else ([], d :: rest)
  | [] => ([], [])

def takeDigits (cs : List Char) : List Char × List Char :=
  (cs.takeWhile Char.isDigit, cs.dropWhile Char.isDigit)

def takeExponent : List Char → List Char × List Char
  | 'E' :: rest =>
    let (minus, after) := takeChar '-' rest
    let (digits, after) := takeDigits after
    if digits = [] then ([], 'E' :: rest) else ('E' :: minus ++ digits, after)
  | cs => ([], cs)

/-- Reads the text of a number that no name character follows. -/
def readNumeral : Reader (List Char) := fun cs =>
  let (minus, cs) := takeChar '-' cs
  let (whole, cs) := takeDigits cs
  let (point, cs) := takeChar '.' cs
  let (fraction, cs) := takeDigits cs
  let (exponent, cs) := takeExponent cs
  if whole = [] || (readName cs).isSome then none
  else some (minus ++ whole ++ point ++ fraction ++ exponent, cs)

/-- Reads the text of null or of a truth value. -/
def readWord : Reader (List Char) := fun cs => do
  let (word, rest) ← readName cs
  if ["null", "true", "false"].contains word then some (word.toList, rest) else none

def readItem (read : Reader (List Char)) : Reader (List Char) := fun cs =>
  match skipBlanks cs with
  | ',' :: rest => (read (skipBlanks rest)).map fun (item, rest) => (',' :: item, rest)
  | _ => none

/-- Reads the text of a number, a word, or an array of such, nested up to a depth. -/
def readConstant : Nat → Reader (List Char)
  | depth + 1, '[' :: rest =>
    let (first, rest) := (readConstant depth (skipBlanks rest)).getD ([], rest)
    let (others, rest) := many (readItem (readConstant depth)) rest
    match skipBlanks rest with
    | ']' :: rest => some ('[' :: first ++ others.flatten ++ [']'], rest)
    | _ => none
  | _, cs => (readNumeral cs).or (readWord cs)

/-! ## Arguments -/

/-- An argument of a helper. -/
inductive Argument where
  | value (path : ValuePath)
  | constant (value : Json)
  deriving Inhabited

/-- Whether a text starts with a word that is no argument. -/
def startsWithKeyword (cs : List Char) : Bool :=
  match readName cs with
  | some (name, _) => name = "as" || name = "else"
  | none => false

/-- Reads an argument behind blanks. What has the looks of a constant is one, and must be JSON. -/
def readArgument : Reader Argument := fun cs =>
  let cs := skipBlanks cs
  if startsWithKeyword cs then none
  else
    match readConstant (Json.nestingLimit + 1) cs with
    | some (text, rest) =>
      match Json.read (text.map .char) with
      | .ok value => some (.constant value, rest)
      | .error _ => none
    | none => (ValuePath.read cs).map fun (path, rest) => (.value path, rest)

/-! ## Tags -/

/-- What stands between braces. -/
inductive Tag where
  | value (path : ValuePath)
  | call (helper : String) (arguments : List Argument)
  /-- the start of a section -/
  | opening (helper : String) (arguments : List Argument)
  /-- the start of the alternative of a section -/
  | alternative
  /-- the start of an alternative that is a section itself -/
  | chained (helper : String) (arguments : List Argument)
  /-- the end of a section -/
  | closing (helper : String)
  deriving Inhabited

namespace Tag

/-- What has been read if only blanks follow. -/
def ended? {α : Type} : Option (α × List Char) → Option α
  | some (a, rest) => if skipBlanks rest = [] then some a else none
  | none => none

/-- The name and the arguments of a helper that a text spells. -/
def call? (cs : List Char) : Option (String × List Argument) :=
  ended? ((readName (skipBlanks cs)).map fun (helper, rest) =>
    let (arguments, rest) := many readArgument rest
    ((helper, arguments), rest))

/-- The call or value that a text spells. The name of a helper calls it, also without arguments. -/
def expression? (cs : List Char) : Option Tag :=
  match call? cs with
  | some (helper, []) =>
    if (Helper.ofName? helper).isSome then some (.call helper [])
    else (ended? (ValuePath.read (skipBlanks cs))).map .value
  | some (helper, arguments) => some (.call helper arguments)
  | none => (ended? (ValuePath.read (skipBlanks cs))).map .value

/-- The alternative, or the section in its place, that a text spells. No blank needs to stand behind
the keyword. -/
def alternative? (cs : List Char) : Option Tag :=
  match skipBlanks cs with
  | 'e' :: 'l' :: 's' :: 'e' :: rest =>
    if skipBlanks rest = [] then some .alternative
    else (call? rest).map fun (helper, arguments) => .chained helper arguments
  | _ => none

/-- The tag that a text between double braces spells. -/
def ofChars? (cs : List Char) : Option Tag :=
  match skipBlanks cs with
  | '#' :: rest => (call? rest).map fun (helper, arguments) => .opening helper arguments
  | '/' :: rest => (ended? (readName (skipBlanks rest))).map .closing
  | cs => (alternative? cs).or (expression? cs)

end Tag

end LayeredTags.Mustache
