/-!
# Classes of characters as ranges of code points

A class is a sorted list of disjoint ranges, both ends included.

* `CharClass.contains`: membership of a code point.
-/

namespace LayeredTags

/-- Disjoint ranges of code points, first and last included, in increasing order. -/
abbrev CharClass := List (Nat × Nat)

namespace CharClass

/-- Membership of a code point; the search stops at the first range that lies above it. -/
def contains : CharClass → Nat → Bool
  | [], _ => false
  | (first, last) :: rest, c =>
    if c < first then false else decide (c ≤ last) || contains rest c

end CharClass

end LayeredTags
