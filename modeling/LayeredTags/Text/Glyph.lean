/-!
# The content of a file

A file is read as UTF-8. Bytes that are part of no character are kept beside the characters, so
that a text with such bytes is refused only where it is looked at.

* `Content`: what a file holds.
* `Content.ofBytes`, `Content.ofString`: the content of bytes and of a text.
* `Content.text?`: the text, if every byte belongs to a character.
-/

namespace LayeredTags

/-- A character, or a byte that belongs to none. -/
inductive Glyph where
  | char (c : Char)
  | stray (byte : UInt8)
  deriving DecidableEq, Repr, Inhabited

/-- The characters and stray bytes of a file. -/
abbrev Content := List Glyph

namespace Glyph

def byteSize : Glyph → Nat
  | char c => c.utf8Size
  | stray _ => 1

def bytes : Glyph → List UInt8
  | char c => String.utf8EncodeChar c
  | stray byte => [byte]

def char? : Glyph → Option Char
  | char c => some c
  | stray _ => none

end Glyph

namespace Content

/-- The low six bits of a continuation byte. -/
def continuation? (byte : UInt8) : Option Nat :=
  if 0x80 ≤ byte ∧ byte < 0xC0 then some (byte.toNat - 0x80) else none

/-- The character that a lead byte starts together with the bytes behind it, and how many of them
belong to it. Overlong forms and surrogates are no characters. -/
def characterAt? (lead : UInt8) (rest : List UInt8) : Option (Char × Nat) :=
  let b := lead.toNat
  if b < 0x80 then some (Char.ofNat b, 0)
  else if 0xC2 ≤ b ∧ b < 0xE0 then do
    let c₁ ← continuation? (← rest[0]?)
    some (Char.ofNat ((b - 0xC0) * 64 + c₁), 1)
  else if 0xE0 ≤ b ∧ b < 0xF0 then do
    let c₁ ← continuation? (← rest[0]?)
    let c₂ ← continuation? (← rest[1]?)
    let n := ((b - 0xE0) * 64 + c₁) * 64 + c₂
    if n < 0x800 ∨ (0xD800 ≤ n ∧ n < 0xE000) then none else some (Char.ofNat n, 2)
  else if 0xF0 ≤ b ∧ b < 0xF5 then do
    let c₁ ← continuation? (← rest[0]?)
    let c₂ ← continuation? (← rest[1]?)
    let c₃ ← continuation? (← rest[2]?)
    let n := (((b - 0xF0) * 64 + c₁) * 64 + c₂) * 64 + c₃
    if n < 0x10000 ∨ 0x110000 ≤ n then none else some (Char.ofNat n, 3)
  else none

/-- The content of bytes, after `skip` bytes that belong to the character before. -/
def ofBytesAfter : Nat → List UInt8 → Content
  | _, [] => []
  | skip + 1, _ :: rest => ofBytesAfter skip rest
  | 0, byte :: rest =>
    match characterAt? byte rest with
    | some (c, more) => .char c :: ofBytesAfter more rest
    | none => .stray byte :: ofBytesAfter 0 rest

def ofBytes (bytes : List UInt8) : Content :=
  ofBytesAfter 0 bytes

def ofString (s : String) : Content :=
  s.toList.map .char

def toBytes (content : Content) : List UInt8 :=
  content.flatMap Glyph.bytes

/-- The text of a content without stray bytes. -/
def text? (content : Content) : Option String :=
  (content.mapM Glyph.char?).map String.ofList

end Content

end LayeredTags
