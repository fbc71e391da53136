/-!
# Tokens of a template

A template is a sequence of texts and of three kinds of markers:
`<tag:Name ...>`, `</tag:Name>` and `{{tag:Name ...}}`.

* `Token`: one text or marker.
-/

namespace LayeredTags

/-- A text or a tag marker. -/
inductive Token where
  | text (content : String)
  /-- the open marker of a block, with its trimmed attribute text -/
  | opening (name raw : String)
  /-- the close marker of a block, with the whole marker as it is written -/
  | closing (name source : String)
  /-- a value marker, with its trimmed attribute text -/
  | value (name raw : String)
  deriving DecidableEq, Repr, Inhabited

end LayeredTags
