import LayeredTags.Attributes.Basic
import LayeredTags.Text.Alphanumeric
import LayeredTags.Text.Blank

/-!
# Reading attributes

The raw text of a tag is cut at blanks outside double quotes. A piece counts when it is a key, an
equals sign and a value between double quotes, with nothing left over; any other piece is passed
over.

* `attributePieces`: the pieces of a raw text.
* `attributePair?`: the pair that a piece spells.
* `Attributes.read`: the attributes of a raw text.
-/

namespace LayeredTags

open Text

def isKeyChar (c : Char) : Bool :=
  isAlphanumeric c || c == '_' || c == '-' || c == ':' || c == '.'

/-- The piece read so far, unless it is empty. -/
def flushPiece (piece : List Char) : List (List Char) :=
  if piece = [] then [] else [piece.reverse]

/-- The pieces of a text, given whether it starts inside quotes and, in reverse, the piece that it
continues. -/
def attributePiecesFrom (inQuotes : Bool) (piece : List Char) : List Char → List (List Char)
  | [] => flushPiece piece
  | c :: rest =>
    let inQuotes := if c = '"' then !inQuotes else inQuotes
    if isBlank c && !inQuotes then flushPiece piece ++ attributePiecesFrom inQuotes [] rest
    else attributePiecesFrom inQuotes (c :: piece) rest

/-- The pieces of a raw text between blanks outside quotes. -/
def attributePieces (raw : List Char) : List (List Char) :=
  attributePiecesFrom false [] raw

/-- The pair of a piece of the form `key="value"`. -/
def attributePair? (piece : List Char) : Option (String × String) :=
  let key := piece.takeWhile isKeyChar
  if key = [] then none
  else
    match piece.dropWhile isKeyChar with
    | '=' :: '"' :: rest =>
      match rest.dropWhile (· ≠ '"') with
      | ['"'] => some (String.ofList key, String.ofList (rest.takeWhile (· ≠ '"')))
      | _ => none
    | _ => none

def Attributes.read (raw : String) : Attributes :=
  Attributes.ofList ((attributePieces raw.toList).filterMap attributePair?)

end LayeredTags
