import LayeredTags.Text.Unprintable

/-!
# Quoted names

The form in which a description of a registry shows a name: between double quotes, with quotes,
backslashes and unprintable characters escaped.

* `quoted`: the quoted form of a name.
-/

namespace LayeredTags.Text

/-- Whether a character without an escape of its own is written by its code point. -/
def isUnprintable (c : Char) : Bool :=
  if c.toNat < 0x80 then c.toNat < 0x20 || c.toNat == 0x7F
  else unprintableBeyondAscii.contains c.toNat

def quotedChar (c : Char) : List Char :=
  match c with
  | '"' => ['\\', '"']
  | '\\' => ['\\', '\\']
  | '\t' => ['\\', 't']
  | '\r' => ['\\', 'r']
  | '\n' => ['\\', 'n']
  | '\x00' => ['\\', '0']
  | c =>
    if isUnprintable c then
      ['\\', 'u', '\x7b'] ++ Nat.toDigits 16 c.toNat ++ ['\x7d']
    else [c]

def quoted (name : String) : String :=
  String.ofList ('"' :: name.toList.flatMap quotedChar ++ ['"'])

end LayeredTags.Text
