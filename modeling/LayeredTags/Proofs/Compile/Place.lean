import LayeredTags.Proofs.Compile.Moment

/-!
# Places in a layer

A pass knows a closed block by its number in the layer. At every moment the numbers are right: the
closed blocks of the siblings that are left stand in the layer from their place on.

* `Node.innerBlocksList_prefix_drop`: the blocks inside the block with a number stand right behind
  it.
* `Moment.Placed`, `Leads.placed`: the place of a moment is the number of its first closed block.
* `Leads.isDefinition_iff`: a closed block that a pass comes to is a definition if and only if it
  is the first one of its name in the layer.
-/

namespace LayeredTags

namespace Node

mutual

theorem innerBlocks_prefix_drop : ∀ (node : Node) (i : Nat) (b : Block),
    node.innerBlocks[i]? = some b → innerBlocksList b.children <+: node.innerBlocks.drop (i + 1)
  | .block tag true children, i, b, h => by
    rw [innerBlocks] at h ⊢
    cases i with
    | zero =>
      obtain rfl := Option.some.inj h
      exact List.prefix_rfl
    | succ i => exact innerBlocksList_prefix_drop children i b h
  | .block _ false _, _, _, h | .root _, _, _, h | .text _, _, _, h | .value _, _, _, h
  | .parent _, _, _, h => by
    rw [innerBlocks] at h
    cases h

theorem innerBlocksList_prefix_drop : ∀ (nodes : List Node) (i : Nat) (b : Block),
    (innerBlocksList nodes)[i]? = some b →
      innerBlocksList b.children <+: (innerBlocksList nodes).drop (i + 1)
  | [], _, _, h => by cases h
  | node :: rest, i, b, h => by
    rw [innerBlocksList] at h ⊢
    rw [List.drop_append]
    by_cases hi : i < node.innerBlocks.length
    · rw [List.getElem?_append_left hi] at h
      exact (innerBlocks_prefix_drop node i b h).trans (List.prefix_append _ _)
    · have hlength : node.innerBlocks.length ≤ i := by omega
      rw [List.getElem?_append_right hlength] at h
      rw [List.drop_eq_nil_of_le (by omega), List.nil_append,
        show i + 1 - node.innerBlocks.length = i - node.innerBlocks.length + 1 by omega]
      exact innerBlocksList_prefix_drop rest _ b h

end

theorem closedBlocks_prefix_drop (root : Node) (i : Nat) (b : Block)
    (h : root.closedBlocks[i]? = some b) :
    innerBlocksList b.children <+: root.closedBlocks.drop (i + 1) := by
  cases root with
  | root children => exact innerBlocksList_prefix_drop children i b h
  | text _ | block _ _ _ | value _ | parent _ => exact innerBlocks_prefix_drop _ i b h

end Node

/-- The closed blocks of the siblings stand in their layer from the place of the moment on. -/
def Moment.Placed (chain : OverrideChain) (m : Moment) : Prop :=
  ∀ n, m.place = some n → ∃ blocks, chain.layers[m.layer]? = some blocks ∧
    Node.innerBlocksList m.nodes <+: blocks.drop n

namespace Moment.Placed

variable {chain : OverrideChain} {layer : Nat} {place : Option Nat} {node : Node}
  {rest : List Node} {stack stack' : OverrideStack Body}

theorem shift {nodes inner : List Node} {front behind : List Block}
    (h : Placed chain ⟨layer, place, nodes, stack⟩)
    (hblocks : Node.innerBlocksList nodes = front ++ (Node.innerBlocksList inner ++ behind)) :
    Placed chain ⟨layer, place.map (· + front.length), inner, stack'⟩ := by
  intro n hn
  obtain ⟨p, rfl, rfl⟩ := Option.map_eq_some_iff.mp hn
  obtain ⟨blocks, hlayer, further, hprefix⟩ := h p rfl
  rw [hblocks, List.append_assoc, List.append_assoc] at hprefix
  refine ⟨blocks, hlayer, behind ++ further, ?_⟩
  rw [← List.drop_drop, ← hprefix, List.drop_left]

theorem tail (h : Placed chain ⟨layer, place, node :: rest, stack⟩) :
    Placed chain ⟨layer, place.map (· + node.blockCount), rest, stack'⟩ := by
  have hblocks : Node.innerBlocksList (node :: rest) =
      node.innerBlocks ++ (Node.innerBlocksList rest ++ []) := by
    rw [Node.innerBlocksList_cons, List.append_nil]
  rw [← Node.length_innerBlocks]
  exact h.shift hblocks

theorem inside {tag : Tag} {children : List Node}
    (h : Placed chain ⟨layer, place, .block tag true children :: rest, stack⟩) :
    Placed chain ⟨layer, place.map (· + 1), children, stack'⟩ := by
  have hblocks : Node.innerBlocksList (.block tag true children :: rest) =
      [⟨tag, children⟩] ++ (Node.innerBlocksList children ++ Node.innerBlocksList rest) := by
    rw [Node.innerBlocksList_cons, Node.innerBlocks]
    rfl
  exact h.shift hblocks

theorem exists_getElem? {tag : Tag} {children : List Node} {number : Nat}
    (h : Placed chain ⟨layer, some number, .block tag true children :: rest, stack⟩) :
    ∃ blocks, chain.layers[layer]? = some blocks ∧ blocks[number]? = some ⟨tag, children⟩ := by
  obtain ⟨blocks, hblocks, further, hprefix⟩ := h number rfl
  refine ⟨blocks, hblocks, ?_⟩
  rw [← List.head?_drop, ← hprefix]
  rfl

theorem of_definition? {roots : List Node} {name : String} {body : Body}
    (h : (OverrideChain.ofRoots roots).definition? layer name = some body) :
    Placed (.ofRoots roots) ⟨layer, some (body.number + 1), body.children, stack⟩ := by
  obtain ⟨_, block, hblocks, hblock, -, hchildren⟩ := OverrideChain.exists_block_of_definition? h
  rw [OverrideChain.ofRoots, List.getElem?_map] at hblocks
  obtain ⟨root, hroot, rfl⟩ := Option.map_eq_some_iff.mp hblocks
  rintro n hn
  obtain rfl := Option.some.inj hn
  refine ⟨root.closedBlocks, by simp [OverrideChain.ofRoots, hroot], ?_⟩
  rw [← hchildren]
  exact root.closedBlocks_prefix_drop body.number block hblock

theorem ofRoot {root : Node} {others : List Node} :
    Placed (.ofRoots (root :: others)) (.ofRoot root) := by
  cases root with
  | root children =>
    intro n hn
    obtain rfl := Option.some.inj hn
    exact ⟨Node.innerBlocksList children, rfl, List.prefix_rfl⟩
  | text _ | block _ _ _ | value _ | parent _ =>
    intro n hn
    obtain rfl := Option.some.inj hn
    refine ⟨Node.innerBlocks _, rfl, [], ?_⟩
    simp only [Moment.ofRoot, Node.innerBlocksList_cons, Node.innerBlocksList_nil,
      List.append_nil, List.drop_zero]

end Moment.Placed

namespace Leads

variable {registry : Registry} {roots : List Node} {m m' : Moment} {path : List Enclosure}

theorem placed (h : Leads registry (.ofRoots roots) m path m') {owner : Option String}
    (ho : Owned (.ofRoots roots) m.layer m.stack owner) (hplaced : m.Placed (.ofRoots roots)) :
    m'.Placed (.ofRoots roots) := by
  induction h generalizing owner with
  | here => exact hplaced
  | pass _ ih => exact ih (ho.compileNode_stack.symm ▸ ho) hplaced.tail
  | enter hbodies _ ih => exact ih (ho.of_layeredBodies? hbodies).1 hplaced.inside
  | through _ _ ih => exact ih ho hplaced.inside
  | root _ ih => exact ih ho fun n hn => by cases hn
  | parent hadvance _ _ _ ih =>
    -- the body that the call goes to is a definition of the owner in its layer
    obtain ⟨-, -, howned⟩ := ho.of_advance hadvance
    obtain ⟨-, -, hbody⟩ := ho.definition?_of_advance hadvance
    exact ih howned (.of_definition? hbody)

theorem isDefinition_iff {root : Node} {others : List Node} {layer number : Nat} {tag : Tag}
    {children rest : List Node} {stack : OverrideStack Body}
    (h : Leads registry (.ofRoots (root :: others)) (.ofRoot root) path
      ⟨layer, some number, .block tag true children :: rest, stack⟩) :
    ∃ blocks, (OverrideChain.ofRoots (root :: others)).layers[layer]? = some blocks ∧
      blocks[number]? = some ⟨tag, children⟩ ∧
      ((OverrideChain.ofRoots (root :: others)).isDefinition layer (some number) tag.name = true ↔
        ∀ block ∈ blocks.take number, block.tag.name ≠ tag.name) := by
  have hstack : (Moment.ofRoot root).stack = .empty := by cases root <;> rfl
  have hplaced := h.placed (hstack ▸ Owned.empty) Moment.Placed.ofRoot
  obtain ⟨blocks, hblocks, hblock⟩ := hplaced.exists_getElem?
  exact ⟨blocks, hblocks, hblock, OverrideChain.isDefinition_iff_forall_take hblocks hblock⟩

end Leads

end LayeredTags
