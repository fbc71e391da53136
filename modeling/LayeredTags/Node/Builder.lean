import LayeredTags.Attributes.Reader
import LayeredTags.Diagnostic
import LayeredTags.Node.Basic
import LayeredTags.Token.Lexer

/-!
# Building the tree of a template

The tokens are read from left to right with a stack of open blocks.

* A close marker that does not name the innermost open block becomes text, and the block stays
  open.
* Blocks that are still open at the end stay unclosed, the innermost below the others.
* `ParseOutcome.ofTokens`, `parse`: the tree and the mistakes that were recovered from.
-/

namespace LayeredTags

/-- A block whose close marker has not been met, with its children so far, the last one first. -/
structure OpenBlock where
  tag : Tag
  reversed : List Node

/-- The tree under construction: finished nodes below the root and the open blocks, the innermost
first. Nodes and mistakes are held in reverse. -/
structure TreeBuilder where
  reversed : List Node
  opened : List OpenBlock
  mistakes : List Diagnostic

/-- A tree and the mistakes that were recovered from. -/
structure ParseOutcome where
  root : Node
  diagnostics : List Diagnostic

/-- Adds a text behind the last node, and to it if it is a text too. -/
def appendText (content : String) : List Node → List Node
  | .text before :: rest => .text (before ++ content) :: rest
  | nodes => .text content :: nodes

namespace TreeBuilder

def empty : TreeBuilder := ⟨[], [], []⟩

/-- Changes the children, in reverse, of the innermost open block or of the root. -/
def update (b : TreeBuilder) (change : List Node → List Node) : TreeBuilder :=
  match b.opened with
  | [] => { b with reversed := change b.reversed }
  | block :: rest => { b with opened := { block with reversed := change block.reversed } :: rest }

def step (b : TreeBuilder) : Token → TreeBuilder
  | .text content => b.update (appendText content)
  | .opening name raw =>
    { b with opened := ⟨⟨name, .read raw, raw⟩, []⟩ :: b.opened }
  | .closing name source =>
    match b.opened with
    | block :: rest =>
      if block.tag.name = name then
        ({ b with opened := rest } : TreeBuilder).update
          (.block block.tag true block.reversed.reverse :: ·)
      else
        ({ b with mistakes := ⟨.mismatchedCloseTag, name⟩ :: b.mistakes } : TreeBuilder).update
          (appendText source)
    | [] =>
      ({ b with mistakes := ⟨.mismatchedCloseTag, name⟩ :: b.mistakes } : TreeBuilder).update
        (appendText source)
  | .value name raw =>
    let tag : Tag := ⟨name, .read raw, raw⟩
    b.update ((if name = parentName then .parent tag else .value tag) :: ·)

/-- The nodes below the root when the open blocks, the innermost first, stay unclosed. The
innermost block holds `last` behind its other children. -/
def closeUnfinished (root : List Node) : List OpenBlock → List Node → List Node
  | [], last => root.reverse ++ last
  | block :: rest, last =>
    closeUnfinished root rest [.block block.tag false (block.reversed.reverse ++ last)]

/-- The tree when no token is left. -/
def finish (b : TreeBuilder) : ParseOutcome where
  root := .root (closeUnfinished b.reversed b.opened [])
  diagnostics := b.mistakes.reverse ++ b.opened.map fun block => ⟨.unclosedBlock, block.tag.name⟩

end TreeBuilder

def ParseOutcome.ofTokens (tokens : List Token) : ParseOutcome :=
  (tokens.foldl TreeBuilder.step TreeBuilder.empty).finish

def parse (source : String) : ParseOutcome :=
  .ofTokens (tokenize source)

end LayeredTags
