import LayeredTags.Proofs.Override.Chain

/-!
# Trees without the blocks of a name

Every closed block of a name gives way to its children, which stand in its place.

* `Node.unwrap`, `Node.unwrapTree`: a node and a whole tree without the blocks.
* `Node.closedBlocks_unwrapTree`: the blocks that are left, in their old order.
* `renumber`: the number of a block among those that are left.
* `OverrideChain.definition?_unwrap`, `definitionsFrom_unwrap`, `isDefinition_unwrap`: other names
  have the definitions that they had.
-/

namespace LayeredTags

namespace Node

mutual

/-- What stands in the place of a node when every closed block of a name gives way to its
children. -/
def unwrap (name : String) : Node → List Node
  | root children => [root (unwrapList name children)]
  | text content => [text content]
  | block tag closed children =>
    if closed = true ∧ tag.name = name then unwrapList name children
    else [block tag closed (unwrapList name children)]
  | value tag => [value tag]
  | parent tag => [parent tag]

def unwrapList (name : String) : List Node → List Node
  | [] => []
  | node :: rest => unwrap name node ++ unwrapList name rest

end

/-- A whole tree without the closed blocks of a name. If the tree itself is such a block, its
children get a root of their own. -/
def unwrapTree (name : String) : Node → Node
  | root children => root (unwrapList name children)
  | text content => text content
  | block tag closed children =>
    if closed = true ∧ tag.name = name then root (unwrapList name children)
    else block tag closed (unwrapList name children)
  | value tag => value tag
  | parent tag => parent tag

end Node

/-! ## The blocks that are left -/

def Block.isOther (name : String) (b : Block) : Bool :=
  b.tag.name ≠ name

def Block.unwrap (name : String) (b : Block) : Block :=
  ⟨b.tag, Node.unwrapList name b.children⟩

/-- The blocks of other names, without the blocks of the name in them. -/
def unwrapBlocks (name : String) (blocks : List Block) : List Block :=
  (blocks.filter (Block.isOther name)).map (Block.unwrap name)

/-- The number among the blocks of other names of the block with a number. -/
def renumber (name : String) (blocks : List Block) (number : Nat) : Nat :=
  (unwrapBlocks name (blocks.take number)).length

section blocks

variable {name other : String} {blocks : List Block} {b : Block} {n : Nat}

@[simp] theorem Block.tag_unwrap : (b.unwrap name).tag = b.tag := rfl

@[simp] theorem unwrapBlocks_nil : unwrapBlocks name [] = [] := rfl

theorem unwrapBlocks_append (others : List Block) : unwrapBlocks name (blocks ++ others) =
    unwrapBlocks name blocks ++ unwrapBlocks name others := by
  rw [unwrapBlocks, List.filter_append, List.map_append]
  rfl

theorem unwrapBlocks_cons_of_eq (h : b.tag.name = name) :
    unwrapBlocks name (b :: blocks) = unwrapBlocks name blocks := by
  rw [unwrapBlocks, List.filter_cons_of_neg (by simpa [Block.isOther] using h)]
  rfl

theorem unwrapBlocks_cons_of_ne (h : b.tag.name ≠ name) :
    unwrapBlocks name (b :: blocks) = b.unwrap name :: unwrapBlocks name blocks := by
  rw [unwrapBlocks, List.filter_cons_of_pos (by simpa [Block.isOther] using h), List.map_cons]
  rfl

theorem renumber_add_length {front : List Block} (h : front <+: blocks.drop n) :
    renumber name blocks (n + front.length) =
      renumber name blocks n + (unwrapBlocks name front).length := by
  rw [renumber, List.take_add, ← List.prefix_iff_eq_take.mp h, unwrapBlocks_append,
    List.length_append, renumber]

theorem take_renumber :
    (unwrapBlocks name blocks).take (renumber name blocks n) =
      unwrapBlocks name (blocks.take n) := by
  conv_lhs => rw [← List.take_append_drop n blocks, unwrapBlocks_append]
  rw [renumber, List.take_append_drop, List.take_left]

theorem getElem?_renumber (hblock : blocks[n]? = some b) (h : b.tag.name ≠ name) :
    (unwrapBlocks name blocks)[renumber name blocks n]? = some (b.unwrap name) := by
  have hdrop : blocks.drop n = b :: blocks.drop (n + 1) := by
    obtain ⟨hlt, rfl⟩ := List.getElem?_eq_some_iff.mp hblock
    exact List.drop_eq_getElem_cons hlt
  conv_lhs => rw [← List.take_append_drop n blocks, unwrapBlocks_append]
  rw [renumber, List.take_append_drop, hdrop, unwrapBlocks_cons_of_ne h,
    List.getElem?_append_right (Nat.le_refl _), Nat.sub_self]
  rfl

theorem forall_mem_unwrapBlocks_iff (hother : other ≠ name) :
    (∀ left ∈ unwrapBlocks name blocks, left.tag.name ≠ other) ↔
      ∀ block ∈ blocks, block.tag.name ≠ other := by
  simp only [unwrapBlocks, List.forall_mem_map, List.mem_filter, Block.isOther, decide_eq_true_eq,
    and_imp]
  constructor
  · rintro h block hmem rfl
    exact h block hmem hother rfl
  · exact fun h block hmem _ => h block hmem

theorem firstNamed?_cons : OverrideChain.firstNamed? other (b :: blocks) =
    if b.tag.name = other then some ⟨0, b.children⟩
    else (OverrideChain.firstNamed? other blocks).map fun body =>
      ⟨body.number + 1, body.children⟩ := by
  rw [OverrideChain.firstNamed?, OverrideChain.firstNamed?, List.findIdx?_cons]
  by_cases h : b.tag.name = other
  · simp [h]
  · cases blocks.findIdx? (·.tag.name = other) with
    | none => simp [h]
    | some number => cases hblock : blocks[number]? <;> simp [h, hblock]

theorem firstNamed?_unwrapBlocks (hother : other ≠ name) (blocks : List Block) :
    OverrideChain.firstNamed? other (unwrapBlocks name blocks) =
      (OverrideChain.firstNamed? other blocks).map fun body =>
        ⟨renumber name blocks body.number, Node.unwrapList name body.children⟩ := by
  induction blocks with
  | nil => rfl
  | cons b rest ih =>
    rw [firstNamed?_cons]
    by_cases hname : b.tag.name = name
    · have hne : b.tag.name ≠ other := fun h => hother (h.symm.trans hname)
      rw [unwrapBlocks_cons_of_eq hname, ih, if_neg hne, Option.map_map]
      refine congrArg (fun f => Option.map f _) (funext fun body => ?_)
      simp [renumber, unwrapBlocks_cons_of_eq hname]
    · rw [unwrapBlocks_cons_of_ne hname, firstNamed?_cons, ih]
      by_cases hfirst : b.tag.name = other
      · rw [Block.tag_unwrap, if_pos hfirst, if_pos hfirst]
        rfl
      · rw [Block.tag_unwrap, if_neg hfirst, if_neg hfirst, Option.map_map, Option.map_map]
        refine congrArg (fun f => Option.map f _) (funext fun body => ?_)
        simp [renumber, unwrapBlocks_cons_of_ne hname]

end blocks

namespace Node

variable {name : String}

mutual

theorem innerBlocksList_unwrap : ∀ node : Node,
    innerBlocksList (node.unwrap name) = unwrapBlocks name node.innerBlocks
  | .block tag true children => by
    have hchildren := innerBlocksList_unwrapList children
    rw [unwrap, innerBlocks]
    by_cases hname : tag.name = name
    · rw [if_pos ⟨rfl, hname⟩, unwrapBlocks_cons_of_eq hname, hchildren]
    · rw [if_neg fun h => hname h.2, unwrapBlocks_cons_of_ne hname, innerBlocksList_cons,
        innerBlocksList_nil, List.append_nil, innerBlocks, hchildren]
      rfl
  | .block tag false children => by
    rw [unwrap, if_neg fun h => Bool.false_ne_true h.1]
    rfl
  | .root _ | .text _ | .value _ | .parent _ => by
    rw [unwrap]
    rfl

theorem innerBlocksList_unwrapList : ∀ nodes : List Node,
    innerBlocksList (unwrapList name nodes) = unwrapBlocks name (innerBlocksList nodes)
  | [] => rfl
  | node :: rest => by
    rw [unwrapList, innerBlocksList_append, innerBlocksList_unwrap node,
      innerBlocksList_unwrapList rest, innerBlocksList_cons, unwrapBlocks_append]

end

/-- The blocks that are left in a tree are those of other names, in their old order. -/
theorem closedBlocks_unwrapTree (root : Node) :
    (root.unwrapTree name).closedBlocks = unwrapBlocks name root.closedBlocks := by
  have hinner : innerBlocksList (root.unwrap name) = _ := innerBlocksList_unwrap root
  cases root with
  | root children => exact innerBlocksList_unwrapList children
  | text | value | parent => rfl
  | block tag closed children =>
    rw [unwrap] at hinner
    rw [unwrapTree, show (block tag closed children).closedBlocks =
      (block tag closed children).innerBlocks from rfl, ← hinner]
    split
    · rfl
    · exact (List.append_nil _).symm

end Node

/-! ## Chains -/

namespace OverrideChain

def unwrap (chain : OverrideChain) (name : String) : OverrideChain :=
  ⟨chain.layers.map (unwrapBlocks name)⟩

/-- The number that a block of a layer has in the chain without the blocks of a name. -/
def renumberIn (chain : OverrideChain) (name : String) (layer number : Nat) : Nat :=
  renumber name (chain.layers[layer]?.getD []) number

/-- What becomes of a definition in a layer. -/
def unwrapBody (chain : OverrideChain) (name : String) (layer : Nat) (body : Body) : Body :=
  ⟨chain.renumberIn name layer body.number, Node.unwrapList name body.children⟩

variable {chain : OverrideChain} {name other : String} {layer : Nat}

theorem ofRoots_unwrap (name : String) (roots : List Node) :
    ofRoots (roots.map (Node.unwrapTree name)) = (ofRoots roots).unwrap name := by
  rw [ofRoots, ofRoots, unwrap, List.map_map, List.map_map]
  exact congrArg OverrideChain.mk
    (List.map_congr_left fun root _ => root.closedBlocks_unwrapTree)

@[simp] theorem depth_unwrap : (chain.unwrap name).depth = chain.depth :=
  List.length_map _

theorem definition?_unwrap (hother : other ≠ name) :
    (chain.unwrap name).definition? layer other =
      (chain.definition? layer other).map (chain.unwrapBody name layer) := by
  rw [definition?, definition?, unwrap, List.getElem?_map]
  cases hblocks : chain.layers[layer]? with
  | none => rfl
  | some blocks =>
    rw [Option.map_some, Option.bind_some, Option.bind_some, firstNamed?_unwrapBlocks hother]
    refine congrArg (fun f => Option.map f _) (funext fun body => ?_)
    rw [unwrapBody, renumberIn, hblocks, Option.getD_some]

theorem renumberIn_succ {body : Body} (h : chain.definition? layer other = some body)
    (hother : other ≠ name) :
    chain.renumberIn name layer (body.number + 1) =
      chain.renumberIn name layer body.number + 1 := by
  obtain ⟨blocks, block, hblocks, hblock, rfl, -⟩ := exists_block_of_definition? h
  have hfront : [block] <+: blocks.drop body.number := by
    obtain ⟨hlt, rfl⟩ := List.getElem?_eq_some_iff.mp hblock
    exact ⟨_, (List.drop_eq_getElem_cons hlt).symm⟩
  have hsucc : renumber name blocks (body.number + 1) = _ := renumber_add_length hfront
  rw [unwrapBlocks_cons_of_ne hother, unwrapBlocks_nil] at hsucc
  rw [renumberIn, renumberIn, hblocks, Option.getD_some]
  exact hsucc

theorem definitionsFrom_unwrap (hother : other ≠ name) :
    (chain.unwrap name).definitionsFrom layer other =
      (chain.definitionsFrom layer other).map fun d => (d.1, chain.unwrapBody name d.1 d.2) := by
  rw [definitionsFrom, definitionsFrom, depth_unwrap, List.map_filterMap]
  refine congrArg (fun f => List.filterMap f _) (funext fun l => ?_)
  rw [definition?_unwrap hother, Option.map_map, Option.map_map]
  rfl

theorem isDefinition_unwrap {blocks : List Block} {block : Block} {number : Nat}
    (hblocks : chain.layers[layer]? = some blocks) (hblock : blocks[number]? = some block)
    (hother : block.tag.name ≠ name) :
    (chain.unwrap name).isDefinition layer (some (chain.renumberIn name layer number))
        block.tag.name =
      chain.isDefinition layer (some number) block.tag.name := by
  have hleft : (chain.unwrap name).layers[layer]? = some (unwrapBlocks name blocks) := by
    rw [unwrap, List.getElem?_map, hblocks, Option.map_some]
  have hdef := isDefinition_iff_forall_take hleft (getElem?_renumber hblock hother)
  rw [take_renumber] at hdef
  rw [renumberIn, hblocks, Option.getD_some, Bool.eq_iff_iff,
    isDefinition_iff_forall_take hblocks hblock]
  exact hdef.trans (forall_mem_unwrapBlocks_iff hother)

end OverrideChain

end LayeredTags
