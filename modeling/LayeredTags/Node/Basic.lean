import LayeredTags.Attributes.Basic

/-!
# Trees of a template

* `Node`: a text, a block with children, a value, a call of the parent, or a root.
* `Node.closedBlocks`: the blocks that can contribute to the output, in pre-order.
-/

namespace LayeredTags

/-- The name of the value tag that stands for the next less specific body of the enclosing block. -/
def parentName : String := "Parent"

/-- What a marker says: a name and attributes, with the text that spells the attributes. -/
structure Tag where
  name : String
  attributes : Attributes
  raw : String
  deriving DecidableEq, Repr, Inhabited

/-- A node of a template tree. A block without its close marker is not closed. -/
inductive Node where
  | root (children : List Node)
  | text (content : String)
  | block (tag : Tag) (closed : Bool) (children : List Node)
  | value (tag : Tag)
  | parent (tag : Tag)
  deriving Repr, Inhabited

/-- A closed block: its tag and what stands between its markers. -/
structure Block where
  tag : Tag
  children : List Node
  deriving Repr, Inhabited

namespace Node

def children : Node → List Node
  | root children => children
  | block _ _ children => children
  | text _ | value _ | parent _ => []

mutual

/-- The closed blocks of a node that stands below another one, in pre-order. Nothing below an
unclosed block or a nested root counts. -/
def innerBlocks : Node → List Block
  | block tag true children => ⟨tag, children⟩ :: innerBlocksList children
  | block _ false _ | root _ | text _ | value _ | parent _ => []

/-- The closed blocks of a list of siblings, in pre-order. -/
def innerBlocksList : List Node → List Block
  | [] => []
  | node :: rest => innerBlocks node ++ innerBlocksList rest

end

mutual

/-- The number of closed blocks of a node that stands below another one. -/
def blockCount : Node → Nat
  | block _ true children => blockCountList children + 1
  | block _ false _ | root _ | text _ | value _ | parent _ => 0

/-- The number of closed blocks of a list of siblings. -/
def blockCountList : List Node → Nat
  | [] => 0
  | node :: rest => blockCount node + blockCountList rest

end

mutual

theorem length_innerBlocks : ∀ node : Node, node.innerBlocks.length = node.blockCount
  | block _ true children => by
    simp [innerBlocks, blockCount, length_innerBlocksList children]
  | block _ false _ | root _ | text _ | value _ | parent _ => by simp [innerBlocks, blockCount]

theorem length_innerBlocksList : ∀ nodes : List Node,
    (innerBlocksList nodes).length = blockCountList nodes
  | [] => rfl
  | node :: rest => by
    simp [innerBlocksList, blockCountList, length_innerBlocks node, length_innerBlocksList rest]

end

/-- The closed blocks of a whole tree, in pre-order. -/
def closedBlocks : Node → List Block
  | root children => innerBlocksList children
  | node => innerBlocks node

@[simp] theorem closedBlocks_root (children : List Node) :
    (root children).closedBlocks = innerBlocksList children := rfl

@[simp] theorem innerBlocksList_nil : innerBlocksList [] = [] := rfl

@[simp] theorem innerBlocksList_cons (node : Node) (rest : List Node) :
    innerBlocksList (node :: rest) = innerBlocks node ++ innerBlocksList rest := rfl

theorem innerBlocksList_append (nodes others : List Node) :
    innerBlocksList (nodes ++ others) = innerBlocksList nodes ++ innerBlocksList others := by
  induction nodes with
  | nil => rfl
  | cons node rest ih =>
    rw [List.cons_append, innerBlocksList_cons, ih, innerBlocksList_cons, List.append_assoc]

end Node

end LayeredTags
