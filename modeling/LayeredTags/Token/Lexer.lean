import LayeredTags.Token.Basic
import LayeredTags.Text.Alphanumeric
import LayeredTags.Text.Blank

/-!
# Splitting a template into tokens

A marker is looked for at every `<` and `{`, in the next `markerLimit` bytes. Where none is found
the character belongs to the text, and the search goes on behind it.

* `closeMarker?`, `openMarker?`, `valueMarker?`: the marker at the start of a text, if there is one.
* `tokenize`: the tokens of a source; texts are never empty and never adjacent.
-/

namespace LayeredTags

open Text

def isNameChar (c : Char) : Bool :=
  isAlphanumeric c || c == '_' || c == '-' || c == '.'

/-- The longest marker, in bytes. -/
def markerLimit : Nat := 4096

/-- The longest part from the start that has at most `budget` bytes. -/
def window : Nat → List Char → List Char
  | _, [] => []
  | budget, c :: rest =>
    if c.utf8Size ≤ budget then c :: window (budget - c.utf8Size) rest else []

/-- What follows a fixed text. -/
def after? : List Char → List Char → Option (List Char)
  | [], cs => some cs
  | _ :: _, [] => none
  | o :: opening, c :: cs => if o = c then after? opening cs else none

/-! ## Attribute texts -/

/-- Text in double quotes at the start of a text, together with its quotes. -/
def quotedRun? : List Char → Option (List Char)
  | '"' :: rest =>
    if '"' ∈ rest then some ('"' :: (rest.takeWhile (· ≠ '"') ++ ['"'])) else none
  | _ => none

/-- The characters at the start of a text that are none of some others. There must be one. -/
def runWithout? (others cs : List Char) : Option (List Char) :=
  let run := cs.takeWhile (· ∉ others)
  if run = [] then none else some run

/-- A closing brace at the start of a text that no second one follows. -/
def singleBrace? : List Char → Option (List Char)
  | '}' :: '}' :: _ => none
  | '}' :: _ => some ['}']
  | _ => none

/-- A piece of the attribute text of an open marker. -/
def openPiece? (cs : List Char) : Option (List Char) :=
  (quotedRun? cs).or (runWithout? ['"', '>'] cs)

/-- A piece of the attribute text of a value marker. -/
def valuePiece? (cs : List Char) : Option (List Char) :=
  (quotedRun? cs).or ((runWithout? ['"', '}'] cs).or (singleBrace? cs))

/-- The characters of a text up to the first place where a piece should start and none does, given
how many characters of the present piece are still to come. -/
def takePiecesFrom (piece? : List Char → Option (List Char)) : Nat → List Char → List Char
  | _, [] => []
  | left + 1, c :: rest => c :: takePiecesFrom piece? left rest
  | 0, c :: rest =>
    match piece? (c :: rest) with
    | some (_ :: run) => c :: takePiecesFrom piece? run.length rest
    | some [] | none => []

/-- As many pieces as there are at the start of a text, one behind the other. -/
def takePieces (piece? : List Char → Option (List Char)) (cs : List Char) : List Char :=
  takePiecesFrom piece? 0 cs

/-! ## Markers -/

/-- A marker and the characters it spans. -/
structure Marker where
  token : Token
  span : List Char

def openStart : List Char := ['<', 't', 'a', 'g', ':']

def closeStart : List Char := ['<', '/', 't', 'a', 'g', ':']

def valueStart : List Char := ['{', '{', 't', 'a', 'g', ':']

def closeMarker? (cs : List Char) : Option Marker :=
  (after? closeStart cs).bind fun rest =>
    let name := rest.takeWhile isNameChar
    let tail := rest.dropWhile isNameChar
    let space := tail.takeWhile isMarkerSpace
    if name ≠ [] ∧ ['>'] <+: tail.dropWhile isMarkerSpace then
      let span := closeStart ++ name ++ space ++ ['>']
      some ⟨.closing (String.ofList name) (String.ofList span), span⟩
    else none

/-- The marker with attributes at the start of a text, given how it starts and ends and of what
pieces its attribute text is made. -/
def attributeMarker? (start closer : List Char) (piece? : List Char → Option (List Char))
    (token : String → String → Token) (cs : List Char) : Option Marker :=
  (after? start cs).bind fun rest =>
    let name := rest.takeWhile isNameChar
    let tail := rest.dropWhile isNameChar
    let raw := takePieces piece? tail
    if name ≠ [] ∧ closer <+: tail.drop raw.length then
      some ⟨token (String.ofList name) (String.ofList (trimBlank raw)),
        start ++ name ++ raw ++ closer⟩
    else none

def openMarker? : List Char → Option Marker :=
  attributeMarker? openStart ['>'] openPiece? .opening

def valueMarker? : List Char → Option Marker :=
  attributeMarker? valueStart ['}', '}'] valuePiece? .value

def marker? (cs : List Char) : Option Marker :=
  (closeMarker? cs).or ((openMarker? cs).or (valueMarker? cs))

/-- The marker at the start of a source, which must lie in the next `markerLimit` bytes. -/
def markerAt? : List Char → Option Marker
  | [] => none
  | c :: rest =>
    if c = '<' ∨ c = '{' then marker? (window markerLimit (c :: rest)) else none

theorem attributeMarker?_span {start closer : List Char}
    {piece? : List Char → Option (List Char)} {token : String → String → Token} {cs : List Char}
    {m : Marker} (h : attributeMarker? start closer piece? token cs = some m) :
    start <+: m.span := by
  simp only [attributeMarker?, Option.bind_eq_some_iff] at h
  obtain ⟨rest, -, h⟩ := h
  split at h
  · simp only [Option.some.injEq] at h
    subst h
    simp [List.append_assoc]
  · simp at h

theorem closeMarker?_span {cs : List Char} {m : Marker} (h : closeMarker? cs = some m) :
    closeStart <+: m.span := by
  simp only [closeMarker?, Option.bind_eq_some_iff] at h
  obtain ⟨rest, -, h⟩ := h
  split at h
  · simp only [Option.some.injEq] at h
    subst h
    simp [List.append_assoc]
  · simp at h

theorem span_ne_nil {cs : List Char} {m : Marker} (h : marker? cs = some m) : m.span ≠ [] := by
  intro hnil
  simp only [marker?, Option.or_eq_some_iff] at h
  rcases h with h | ⟨-, h | ⟨-, h⟩⟩
  · simpa [hnil, closeStart] using closeMarker?_span h
  · simpa [hnil, openStart] using attributeMarker?_span h
  · simpa [hnil, valueStart] using attributeMarker?_span h

theorem length_drop_span_lt {cs : List Char} {m : Marker} (h : markerAt? cs = some m) :
    (cs.drop m.span.length).length < cs.length := by
  cases cs with
  | nil => simp [markerAt?] at h
  | cons c rest =>
    simp only [markerAt?] at h
    split at h
    · have := List.length_pos_iff.2 (span_ne_nil h)
      simp only [List.length_drop, List.length_cons]
      omega
    · simp at h

/-- The text read so far, in reverse, unless it is empty. -/
def flushText (text : List Char) : List Token :=
  if text = [] then [] else [.text (String.ofList text.reverse)]

/-- The tokens of a source, given the text before it in reverse. -/
def tokensFrom (text : List Char) : List Char → List Token
  | [] => flushText text
  | c :: rest =>
    match _h : markerAt? (c :: rest) with
    | some m => flushText text ++ m.token :: tokensFrom [] ((c :: rest).drop m.span.length)
    | none => tokensFrom (c :: text) rest
termination_by cs => cs.length
decreasing_by
  · exact length_drop_span_lt ‹_›
  · simp

def tokenize (source : String) : List Token :=
  tokensFrom [] source.toList

end LayeredTags
