import LayeredTags.Node.Basic
import LayeredTags.Override.Stack

/-!
# Override chains

A chain is a list of layers, the most specific first. The first closed block of a name in a layer
is the definition of that name there, and a closed block is known by its number in the pre-order of
the closed blocks of its layer.

* `OverrideChain.definition?`: the definition of a name in a layer.
* `OverrideChain.layeredBodies?`: the bodies that a block is entered with.
-/

namespace LayeredTags

/-- What stands inside a closed block, and the number of that block in its layer. -/
structure Body where
  number : Nat
  children : List Node
  deriving Repr, Inhabited

/-- The closed blocks of every layer in pre-order, the most specific layer first. -/
structure OverrideChain where
  layers : List (List Block)

namespace OverrideChain

def ofRoots (roots : List Node) : OverrideChain :=
  ⟨roots.map Node.closedBlocks⟩

def depth (chain : OverrideChain) : Nat :=
  chain.layers.length

def firstNamed? (name : String) (blocks : List Block) : Option Body :=
  (blocks.findIdx? (·.tag.name = name)).bind fun number =>
    blocks[number]?.map fun block => ⟨number, block.children⟩

def definition? (chain : OverrideChain) (layer : Nat) (name : String) : Option Body :=
  chain.layers[layer]?.bind (firstNamed? name)

/-- The definitions of a name in the layers from `layer` on, in order. -/
def definitionsFrom (chain : OverrideChain) (layer : Nat) (name : String) : List (Nat × Body) :=
  (List.range' layer (chain.depth - layer)).filterMap fun l =>
    (chain.definition? l name).map (l, ·)

/-- The bodies that a block of the current layer is entered with: its own and those of the less
specific layers. There are none if the block is not the definition of its name, or if that name is
being compiled already. The place is the number of the block; a node that stands in no layer, or
not in the current one, has no place and defines nothing. -/
def layeredBodies? (chain : OverrideChain) (layer : Nat) (place : Option Nat) (name : String)
    (stack : OverrideStack Body) : Option (List (Nat × Body)) :=
  if stack.isActive name then none
  else
    (chain.definition? layer name).bind fun own =>
      if place = some own.number then some ((layer, own) :: chain.definitionsFrom (layer + 1) name)
      else none

end OverrideChain

end LayeredTags
