import LayeredTags.Json.Fault
import LayeredTags.Json.Number
import LayeredTags.Text.Glyph

/-!
# Lexemes of JSON texts

A text is split from left to right; the split ends at the first place that no lexeme can continue.

* `Lexeme`: a sign, a word, a number, a string, or the place where the split ends.
* `Lexeme.split`: the lexemes of a content.

A string whose escapes or bytes spell no text is still one lexeme: it is refused only where its
text is asked for.
-/

namespace LayeredTags.Json

/-- A part of a JSON text. -/
inductive Lexeme where
  | openArray
  | closeArray
  | openObject
  | closeObject
  | comma
  | colon
  | null
  | bool (b : Bool)
  | number (n : Numeral)
  /-- a string, with its text or the reason why it has none -/
  | string (text : Except Fault String)
  /-- a string that does not end -/
  | badString (place : Break)
  /-- a place where no lexeme starts, or where a word or number breaks off -/
  | bad (place : Break)
  deriving Inhabited

namespace Lexeme

/-! ## Strings -/

/-- A string under way: the characters so far in reverse, a high surrogate that awaits its other
half, whether an escape spells no character, and whether a byte belongs to none. -/
structure Quote where
  reversed : List Char
  high : Option Nat
  spoiled : Bool
  stray : Bool
  deriving Repr

namespace Quote

def empty : Quote := ⟨[], none, false, false⟩

def push (q : Quote) (c : Char) : Quote :=
  { q with reversed := c :: q.reversed, high := none, spoiled := q.spoiled || q.high.isSome }

/-- Adds a byte that belongs to no character; a high surrogate before it stays alone. -/
def pushStray (q : Quote) : Quote :=
  { q with high := none, spoiled := q.spoiled || q.high.isSome, stray := true }

/-- Adds a unit of two bytes that is spelled in hexadecimal. -/
def pushUnit (q : Quote) (unit : Nat) : Quote :=
  if 0xDC00 ≤ unit ∧ unit ≤ 0xDFFF then
    match q.high with
    | some high =>
      { q with
        reversed := Char.ofNat ((high - 0xD800) * 0x400 + (unit - 0xDC00) + 0x10000) :: q.reversed
        high := none }
    | none => { q with spoiled := true }
  else if 0xD800 ≤ unit ∧ unit ≤ 0xDBFF then
    { q with high := some unit, spoiled := q.spoiled || q.high.isSome }
  else q.push (Char.ofNat unit)

def text (q : Quote) : Except Fault String :=
  if q.spoiled || q.high.isSome || q.stray then .error .malformed
  else .ok (String.ofList q.reversed.reverse)

/-- A string that does not end. Who asks for its text meets an escape that spells no character
first; bytes are only looked at when the string ends. -/
def unended (q : Quote) (fault : Fault) : Lexeme :=
  let asked := if q.spoiled then .malformed else fault
  .badString ⟨asked, fault, asked⟩

end Quote

def escape? : Char → Option Char
  | '"' => some '"'
  | '\\' => some '\\'
  | '/' => some '/'
  | 'b' => some '\x08'
  | 'f' => some '\x0c'
  | 'n' => some '\n'
  | 'r' => some '\r'
  | 't' => some '\t'
  | _ => none

def hexDigit? (c : Char) : Option Nat :=
  if '0' ≤ c ∧ c ≤ '9' then some (c.toNat - '0'.toNat)
  else if 'a' ≤ c ∧ c ≤ 'f' then some (c.toNat - 'a'.toNat + 10)
  else if 'A' ≤ c ∧ c ≤ 'F' then some (c.toNat - 'A'.toNat + 10)
  else none

/-- Whether a content has fewer than `count` bytes. -/
def isShorter : Nat → Content → Bool
  | 0, _ => false
  | _ + 1, [] => true
  | count + 1, g :: rest => isShorter (count + 1 - g.byteSize) rest

/-! ## Numbers -/

/-- The part of a number that was read last. -/
inductive NumberPart where
  | minus
  | zero
  | integer
  | point
  | fraction
  | exponentMark
  | exponentSign
  | exponent
  deriving DecidableEq, Repr

/-- A number under way; digits are held in reverse. -/
structure NumberDraft where
  part : NumberPart
  numeral : Numeral
  deriving Repr

namespace NumberDraft

/-- Whether a number may end here. -/
def mayEnd (d : NumberDraft) : Bool :=
  match d.part with
  | .zero | .integer | .fraction | .exponent => true
  | .minus | .point | .exponentMark | .exponentSign => false

/-- The number with its digits in order. -/
def finish (d : NumberDraft) : Numeral :=
  { d.numeral with
    integer := d.numeral.integer.reverse
    fraction := d.numeral.fraction.map List.reverse
    exponent := d.numeral.exponent.map fun (sign, digits) => (sign, digits.reverse) }

/-- What a character does to a number: it goes on, it ends before the character, or it breaks. -/
inductive Next where
  | goesOn (d : NumberDraft)
  | ends
  | breaks

def digit (d : NumberDraft) (value : Nat) : Next :=
  let n := d.numeral
  match d.part with
  | .minus | .integer =>
    let part := if d.part = .minus ∧ value = 0 then .zero else .integer
    .goesOn ⟨part, { n with integer := value :: n.integer }⟩
  | .zero => .breaks
  | .point | .fraction =>
    .goesOn ⟨.fraction, { n with fraction := some (value :: n.fraction.getD []) }⟩
  | .exponentMark | .exponentSign | .exponent =>
    let (sign, digits) := n.exponent.getD (false, [])
    .goesOn ⟨.exponent, { n with exponent := some (sign, value :: digits) }⟩

def next (d : NumberDraft) (c : Char) : Next :=
  let stop := if d.mayEnd then Next.ends else .breaks
  if '0' ≤ c ∧ c ≤ '9' then d.digit (c.toNat - '0'.toNat)
  else if c = '.' ∧ (d.part = .zero ∨ d.part = .integer) then
    .goesOn ⟨.point, { d.numeral with fraction := some [] }⟩
  else if (c = 'e' ∨ c = 'E') ∧ (d.part = .zero ∨ d.part = .integer ∨ d.part = .fraction) then
    .goesOn ⟨.exponentMark, { d.numeral with exponent := some (false, []) }⟩
  else if (c = '+' ∨ c = '-') ∧ d.part = .exponentMark then
    .goesOn ⟨.exponentSign, { d.numeral with exponent := some (c = '-', []) }⟩
  else stop

def negative : NumberDraft := ⟨.minus, ⟨true, [], none, none⟩⟩

def ofDigit (value : Nat) : NumberDraft :=
  ⟨if value = 0 then .zero else .integer, ⟨false, [value], none, none⟩⟩

end NumberDraft

/-! ## The split -/

/-- What is being read. -/
inductive Mode where
  | between
  /-- a word with the characters that it still needs -/
  | word (lexeme : Lexeme) (rest : List Char)
  | number (d : NumberDraft)
  | string (q : Quote)
  | escape (q : Quote)
  /-- a hexadecimal escape, with its value so far and the number of digits that it still needs -/
  | hex (q : Quote) (value left : Nat)

/-- Where a character leads when it stands between lexemes: to a mode, possibly behind a lexeme of
this one character, or nowhere. -/
def start (c : Char) : Option (List Lexeme × Mode) :=
  match c with
  | ' ' | '\n' | '\t' | '\r' => some ([], .between)
  | '[' => some ([.openArray], .between)
  | ']' => some ([.closeArray], .between)
  | '\x7b' => some ([.openObject], .between)
  | '\x7d' => some ([.closeObject], .between)
  | ',' => some ([.comma], .between)
  | ':' => some ([.colon], .between)
  | '"' => some ([], .string .empty)
  | 'n' => some ([], .word .null ['u', 'l', 'l'])
  | 't' => some ([], .word (.bool true) ['r', 'u', 'e'])
  | 'f' => some ([], .word (.bool false) ['a', 'l', 's', 'e'])
  | '-' => some ([], .number .negative)
  | c =>
    if '0' ≤ c ∧ c ≤ '9' then some ([], .number (.ofDigit (c.toNat - '0'.toNat))) else none

/-- The lexemes when the content ends. A number that breaks off has ended too early for who asks
for it, and is no number for who passes over it; neither a word nor a number is a name. -/
def atEnd : Mode → List Lexeme
  | .between => []
  | .word _ _ => [.bad ⟨.truncated, .truncated, .malformed⟩]
  | .number d =>
    if d.mayEnd then [.number d.finish] else [.bad ⟨.truncated, .malformed, .malformed⟩]
  | .string q | .escape q | .hex q _ _ => [q.unended .truncated]

/-- The lexemes of a content that is read in the given mode. -/
def splitFrom : Mode → Content → List Lexeme
  | mode, [] => atEnd mode
  | .between, .char c :: rest =>
    match start c with
    | some (lexemes, mode) => lexemes ++ splitFrom mode rest
    | none => [.bad (.plain .malformed)]
  | .between, .stray _ :: _ => [.bad (.plain .malformed)]
  | .word lexeme needed, g :: rest =>
    match needed with
    | [] => [.bad (.plain .malformed)]
    | [c] =>
      if g = .char c then lexeme :: splitFrom .between rest else [.bad (.plain .malformed)]
    | c :: needed =>
      if g = .char c then splitFrom (.word lexeme needed) rest else [.bad (.plain .malformed)]
  | .number d, .char c :: rest =>
    match d.next c with
    | .goesOn d => splitFrom (.number d) rest
    | .breaks => [.bad (.plain .malformed)]
    | .ends =>
      match start c with
      | some (lexemes, mode) => .number d.finish :: lexemes ++ splitFrom mode rest
      | none => [.number d.finish, .bad (.plain .malformed)]
  | .number d, .stray _ :: _ =>
    if d.mayEnd then [.number d.finish, .bad (.plain .malformed)] else [.bad (.plain .malformed)]
  | .string q, .char c :: rest =>
    if c = '"' then .string q.text :: splitFrom .between rest
    else if c = '\\' then splitFrom (.escape q) rest
    else if c.toNat < 0x20 then [q.unended .malformed]
    else splitFrom (.string (q.push c)) rest
  | .string q, .stray _ :: rest => splitFrom (.string q.pushStray) rest
  | .escape q, .char c :: rest =>
    if c = 'u' then
      if isShorter 4 rest then [q.unended .truncated] else splitFrom (.hex q 0 4) rest
    else
      match escape? c with
      | some e => splitFrom (.string (q.push e)) rest
      | none => [q.unended .malformed]
  | .escape q, .stray _ :: _ => [q.unended .malformed]
  | .hex q value left, .char c :: rest =>
    match hexDigit? c with
    | some d =>
      if left ≤ 1 then splitFrom (.string (q.pushUnit (value * 16 + d))) rest
      else splitFrom (.hex q (value * 16 + d) (left - 1)) rest
    | none => [q.unended .malformed]
  | .hex q _ _, .stray _ :: _ => [q.unended .malformed]

def split (content : Content) : List Lexeme :=
  splitFrom .between content

end Lexeme

end LayeredTags.Json
