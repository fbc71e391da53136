import LayeredTags.Compile.Compiler
import LayeredTags.Proofs.Compile.Influence
import LayeredTags.Proofs.Compile.Place
import LayeredTags.Proofs.Node.Unwrap
import Mathlib

/-!
# Unknown blocks are transparent

A block without a callback yields the code of its children. Entering it changes nothing else, as
long as no less specific layer has a definition of its name: calls of the parent then go where they
would go without it. So the children may stand in its place.

* `code_emitBlock_congr`: the code of a block depends on the code of its children alone.
* `code_evaluateNodes_append`: siblings in two parts.
* `Moment.Placed.map_renumberIn`, `isDefinition_unwrap`: places in the chain without the blocks.
* `Bared`: an environment and the environment without the blocks, with what keeps the two together.
* `Dispensable`: a name whose blocks a chain can do without.
* `code_evaluateNode_unwrap`: evaluation with the blocks and without them.
* `code_compileRoots_unwrapTree`: the code of a whole chain.
-/

namespace LayeredTags

namespace Registry

variable {registry : Registry} {tag : Tag} {inner other : Emission}

theorem code_emitBlock_congr (h : inner.code = other.code) :
    (registry.emitBlock tag inner).code = (registry.emitBlock tag other).code := by
  rw [(registry.emitBlock_ofCode tag inner).1, (registry.emitBlock_ofCode tag other).1, h]

theorem code_emitBlock_of_none (h : registry.block? tag.name = none) :
    (registry.emitBlock tag inner).code = inner.code := by
  rw [emitBlock, h]

end Registry

section siblings

variable (registry : Registry) {chain : OverrideChain} {layer : Nat} (active : List String)
  (heritage : Option (Heritage chain layer))

theorem code_evaluateNodes_singleton (place : Option Nat) (node : Node) :
    (evaluateNodes registry chain layer active heritage place [node]).code =
      (evaluateNode registry chain layer active heritage (node.placeIn place) node).code := by
  rw [evaluateNodes, evaluateNodes, Emission.code_append]
  exact String.append_empty

theorem code_evaluateNodes_append (place : Option Nat) (front nodes : List Node) :
    (evaluateNodes registry chain layer active heritage place (front ++ nodes)).code =
      (evaluateNodes registry chain layer active heritage place front).code ++
        (evaluateNodes registry chain layer active heritage
          (place.map (· + Node.blockCountList front)) nodes).code := by
  induction front generalizing place with
  | nil =>
    have hplace : place.map (· + Node.blockCountList []) = place := Option.map_id'
    rw [evaluateNodes, hplace]
    exact String.empty_append.symm
  | cons node rest ih =>
    have hplace : (place.map (· + node.blockCount)).map (· + Node.blockCountList rest) =
        place.map (· + Node.blockCountList (node :: rest)) := by
      rw [Option.map_map]
      exact congrArg (fun f => Option.map f place) (funext fun n => Nat.add_assoc ..)
    rw [List.cons_append, evaluateNodes, evaluateNodes, Emission.code_append, Emission.code_append,
      ih, hplace, String.append_assoc]

end siblings

/-! ## Places without the blocks of a name -/

namespace Moment.Placed

variable {chain : OverrideChain} {layer : Nat} {place : Option Nat} {nodes rest : List Node}
  {tag : Tag} {children : List Node} {stack : OverrideStack Body} {name : String}

theorem map_renumberIn (name : String) (h : Placed chain ⟨layer, place, nodes, stack⟩)
    {front : List Block} (hfront : front <+: Node.innerBlocksList nodes) :
    (place.map (· + front.length)).map (chain.renumberIn name layer) =
      (place.map (chain.renumberIn name layer)).map (· + (unwrapBlocks name front).length) := by
  cases place with
  | none => rfl
  | some n =>
    obtain ⟨blocks, hblocks, hprefix⟩ := h n rfl
    simp only [Option.map_some, OverrideChain.renumberIn, hblocks, Option.getD_some,
      renumber_add_length (hfront.trans hprefix)]

theorem map_renumberIn_block (name : String)
    (h : Placed chain ⟨layer, place, .block tag true children :: rest, stack⟩) :
    (place.map (· + 1)).map (chain.renumberIn name layer) =
      (place.map (chain.renumberIn name layer)).map
        (· + (unwrapBlocks name [⟨tag, children⟩]).length) :=
  have hfront : [⟨tag, children⟩] <+: Node.innerBlocksList (.block tag true children :: rest) :=
    ⟨_, rfl⟩
  h.map_renumberIn name hfront

theorem map_renumberIn_of_eq
    (h : Placed chain ⟨layer, place, .block tag true children :: rest, stack⟩)
    (hname : tag.name = name) : (place.map (· + 1)).map (chain.renumberIn name layer) =
      place.map (chain.renumberIn name layer) := by
  have hfront := h.map_renumberIn_block name
  rw [unwrapBlocks_cons_of_eq hname] at hfront
  exact hfront.trans Option.map_id'

theorem map_renumberIn_of_ne
    (h : Placed chain ⟨layer, place, .block tag true children :: rest, stack⟩)
    (hname : tag.name ≠ name) : (place.map (· + 1)).map (chain.renumberIn name layer) =
      (place.map (chain.renumberIn name layer)).map (· + 1) := by
  have hfront := h.map_renumberIn_block name
  rwa [unwrapBlocks_cons_of_ne hname] at hfront

theorem map_renumberIn_tail {node : Node}
    (h : Placed chain ⟨layer, place, node :: rest, stack⟩) :
    (place.map (· + node.blockCount)).map (chain.renumberIn name layer) =
      (place.map (chain.renumberIn name layer)).map
        (· + Node.blockCountList (node.unwrap name)) := by
  have hfront := h.map_renumberIn name (List.prefix_append node.innerBlocks _)
  rwa [Node.length_innerBlocks, ← Node.innerBlocksList_unwrap, Node.length_innerBlocksList]
    at hfront

theorem isDefinition_unwrap
    (h : Placed chain ⟨layer, place, .block tag true children :: rest, stack⟩)
    (hname : tag.name ≠ name) :
    (chain.unwrap name).isDefinition layer (place.map (chain.renumberIn name layer)) tag.name =
      chain.isDefinition layer place tag.name := by
  cases place with
  | none => simp [OverrideChain.isDefinition]
  | some n =>
    obtain ⟨blocks, hblocks, hblock⟩ := h.exists_getElem?
    exact OverrideChain.isDefinition_unwrap hblocks hblock hname

end Moment.Placed

/-! ## Environments without the blocks of a name -/

/-- An environment of a chain and one of the chain without the blocks of a name. The same other
names are active, and calls of the parent have the same definitions ahead of them, which belong to
other names. -/
structure Bared {chain : OverrideChain} {layer : Nat} (name : String) (active names : List String)
    (whole : Option (Heritage chain layer)) (bare : Option (Heritage (chain.unwrap name) layer)) :
    Prop where
  active : ∀ other, other ≠ name → (other ∈ active ↔ other ∈ names)
  definitions : bare.map (·.definitions) = whole.map fun h =>
    h.definitions.map fun d => (d.1, chain.unwrapBody name d.1 d.2)
  named : ∀ h ∈ whole, ∀ d ∈ h.definitions, ∃ other ≠ name, chain.definition? d.1 other = some d.2

namespace Bared

variable {chain : OverrideChain} {layer : Nat} {name : String} {active names : List String}
  {whole : Option (Heritage chain layer)} {bare : Option (Heritage (chain.unwrap name) layer)}

theorem none_none : Bared name [] [] (none : Option (Heritage chain layer)) none where
  active _ _ := Iff.rfl
  definitions := rfl
  named h hh := absurd hh (Option.not_mem_none h)

theorem enter {other : String} (h : Bared name active names whole bare) (hother : other ≠ name) :
    Bared name (active ++ [other]) (names ++ [other]) (Heritage.enter other whole)
      (Heritage.enter other bare) := by
  have hdefs : (chain.unwrap name).definitionsFrom (layer + 1) other = _ :=
    OverrideChain.definitionsFrom_unwrap hother
  have hactive : ∀ n, n ≠ name → (n ∈ active ++ [other] ↔ n ∈ names ++ [other]) := by
    intro n hn
    rw [List.mem_append, List.mem_append, h.active n hn]
  rw [Heritage.enter, Heritage.enter, hdefs]
  by_cases hnil : chain.definitionsFrom (layer + 1) other = []
  · rw [if_pos hnil, if_pos (List.map_eq_nil_iff.mpr hnil)]
    exact ⟨hactive, h.definitions, h.named⟩
  · rw [if_neg hnil, if_neg (mt List.map_eq_nil_iff.mp hnil)]
    refine ⟨hactive, congrArg some hdefs, ?_⟩
    rintro _ ⟨⟩ ⟨l, body⟩ hd
    exact ⟨other, hother, (OverrideChain.mem_definitionsFrom.mp hd).2⟩

theorem enter_left (h : Bared name active names whole bare)
    (hnil : chain.definitionsFrom (layer + 1) name = []) :
    Bared name (active ++ [name]) names (Heritage.enter name whole) bare := by
  rw [Heritage.enter, if_pos hnil]
  refine ⟨fun other hother => ?_, h.definitions, h.named⟩
  rw [List.mem_append, List.mem_singleton, or_iff_left hother, h.active other hother]

theorem behind {w : Heritage chain layer} {b : Heritage (chain.unwrap name) layer}
    (h : Bared name active names (some w) (some b)) {l : Nat} {body : Body}
    {others : List (Nat × Body)} (hdefs : w.definitions = (l, body) :: others) :
    (∃ other ≠ name, chain.definition? l other = some body) ∧
      ∃ hbare : b.definitions = (l, chain.unwrapBody name l body) ::
          others.map fun d => (d.1, chain.unwrapBody name d.1 d.2),
        Bared name active names (some (w.behind hdefs)) (some (b.behind hbare)) := by
  have hbare : b.definitions = w.definitions.map fun d => (d.1, chain.unwrapBody name d.1 d.2) :=
    Option.some.inj h.definitions
  have hnamed := h.named w rfl
  rw [hdefs] at hbare hnamed
  obtain ⟨hbody, hothers⟩ := List.forall_mem_cons.mp hnamed
  exact ⟨hbody, hbare, h.active, rfl, fun _ hw => Option.some.inj hw ▸ hothers⟩

end Bared

/-! ## Evaluation with the blocks and without them -/

/-- The name has no callback, and none of its definitions has another one behind it. The third field
holds in every chain of trees: the children of a definition stand behind it. -/
structure Dispensable (registry : Registry) (chain : OverrideChain) (name : String) : Prop where
  unknown : registry.block? name = none
  once : ∀ l, (chain.definition? l name).isSome → chain.definitionsFrom (l + 1) name = []
  places : ∀ l other body, chain.definition? l other = some body →
    Moment.Placed chain ⟨l, some (body.number + 1), body.children, .empty⟩

section unwrap

variable {registry : Registry} {chain : OverrideChain} {name : String}

mutual

/-- A node yields the code of what stands in its place without the unknown blocks of a name. -/
theorem code_evaluateNode_unwrap (h : Dispensable registry chain name) (layer : Nat)
    (active names : List String) (whole : Option (Heritage chain layer))
    (bare : Option (Heritage (chain.unwrap name) layer))
    (hbared : Bared name active names whole bare) (place : Option Nat) (node : Node)
    (rest : List Node) (hplaced : Moment.Placed chain ⟨layer, place, node :: rest, .empty⟩) :
    (evaluateNodes registry (chain.unwrap name) layer names bare
        (place.map (chain.renumberIn name layer)) (node.unwrap name)).code =
      (evaluateNode registry chain layer active whole (node.placeIn place) node).code := by
  match node with
  | .text content => rw [Node.unwrap, code_evaluateNodes_singleton, evaluateNode, evaluateNode]
  | .value tag => rw [Node.unwrap, code_evaluateNodes_singleton, evaluateNode, evaluateNode]
  | .root children =>
    rw [Node.unwrap, code_evaluateNodes_singleton, evaluateNode, evaluateNode]
    exact code_evaluateNodes_unwrap h layer active names whole bare hbared none children
      fun n hn => by cases hn
  | .block tag false children =>
    rw [Node.unwrap, if_neg fun h => Bool.false_ne_true h.1, code_evaluateNodes_singleton,
      evaluateNode, evaluateNode]
  | .block tag true children =>
    have hchildren := fun active names whole bare hbared =>
      code_evaluateNodes_unwrap h layer active names whole bare hbared (place.map (· + 1)) children
        hplaced.inside
    rw [Node.unwrap]
    by_cases hname : tag.name = name
    · -- the children alone are left; whether they are entered makes no difference to them
      rw [hplaced.map_renumberIn_of_eq hname] at hchildren
      rw [if_pos ⟨rfl, hname⟩, evaluateNode, Registry.code_emitBlock_of_none (hname ▸ h.unknown)]
      split
      · rename_i hdef
        obtain ⟨own, hown, -⟩ := OverrideChain.isDefinition_iff.mp hdef.2
        rw [hname] at hown ⊢
        exact hchildren _ _ _ _ (hbared.enter_left (h.once layer (Option.isSome_of_eq_some hown)))
      · exact hchildren _ _ _ _ hbared
    · rw [hplaced.map_renumberIn_of_ne hname] at hchildren
      rw [if_neg fun h => hname h.2, code_evaluateNodes_singleton, evaluateNode, evaluateNode]
      refine Registry.code_emitBlock_congr ?_
      simp only [Node.placeIn, hbared.active tag.name hname, hplaced.isDefinition_unwrap hname]
      split
      · exact hchildren _ _ _ _ (hbared.enter hname)
      · exact hchildren _ _ _ _ hbared
  | .parent tag =>
    rw [Node.unwrap, code_evaluateNodes_singleton]
    cases whole with
    | none =>
      obtain rfl := Option.map_eq_none_iff.mp hbared.definitions
      rw [evaluateNode_parent_none, evaluateNode_parent_none]
      rfl
    | some w =>
      obtain ⟨b, rfl, hmap⟩ := Option.map_eq_some_iff.mp hbared.definitions
      cases hdefs : w.definitions with
      | nil =>
        have hnil : b.definitions = [] := hmap.trans (List.map_eq_nil_iff.mpr hdefs)
        rw [evaluateNode_parent_nil hdefs, evaluateNode_parent_nil hnil]
        rfl
      | cons next others =>
        obtain ⟨l, body⟩ := next
        have hlt := w.lt_of_definitions_eq hdefs
        obtain ⟨⟨other, hother, hbody⟩, hbare, hbehind⟩ := hbared.behind hdefs
        have hinner := code_evaluateNodes_unwrap h l active names _ _ hbehind _ body.children
          (h.places l other body hbody)
        rw [Option.map_some, OverrideChain.renumberIn_succ hbody hother] at hinner
        rw [evaluateNode_parent_cons hdefs, evaluateNode_parent_cons hbare]
        exact hinner
termination_by (chain.depth - layer, sizeOf node)

theorem code_evaluateNodes_unwrap (h : Dispensable registry chain name) (layer : Nat)
    (active names : List String) (whole : Option (Heritage chain layer))
    (bare : Option (Heritage (chain.unwrap name) layer))
    (hbared : Bared name active names whole bare) (place : Option Nat) (nodes : List Node)
    (hplaced : Moment.Placed chain ⟨layer, place, nodes, .empty⟩) :
    (evaluateNodes registry (chain.unwrap name) layer names bare
        (place.map (chain.renumberIn name layer)) (Node.unwrapList name nodes)).code =
      (evaluateNodes registry chain layer active whole place nodes).code := by
  match nodes with
  | [] => rw [Node.unwrapList, evaluateNodes, evaluateNodes]
  | node :: rest =>
    rw [Node.unwrapList, code_evaluateNodes_append, ← hplaced.map_renumberIn_tail, evaluateNodes,
      Emission.code_append,
      code_evaluateNode_unwrap h layer active names whole bare hbared place node rest hplaced,
      code_evaluateNodes_unwrap h layer active names whole bare hbared _ rest hplaced.tail]
termination_by (chain.depth - layer, sizeOf nodes)

end

end unwrap

/-! ## Whole chains -/

theorem code_evaluateNode_unwrapTree (registry : Registry) {chain : OverrideChain} {layer : Nat}
    (active : List String) (heritage : Option (Heritage chain layer)) (place : Option Nat)
    (name : String) {node : Node} (hnode : ∀ p, node.placeIn p = p) :
    (evaluateNode registry chain layer active heritage place (node.unwrapTree name)).code =
      (evaluateNodes registry chain layer active heritage place (node.unwrap name)).code := by
  cases node with
  | root children => cases hnode (some 0)
  | text | value | parent =>
    rw [Node.unwrapTree, Node.unwrap, code_evaluateNodes_singleton]
    rfl
  | block tag closed children =>
    rw [Node.unwrapTree, Node.unwrap]
    split
    · rw [evaluateNode]
    · rw [code_evaluateNodes_singleton]
      rfl

/-- Whether a tree has a closed block of a name. -/
def Node.hasBlock (name : String) (root : Node) : Bool :=
  root.closedBlocks.any (·.tag.name = name)

theorem OverrideChain.definitionsFrom_of_countP_le {roots : List Node} {name : String}
    (h : roots.countP (Node.hasBlock name) ≤ 1) {l : Nat}
    (hl : ((ofRoots roots).definition? l name).isSome) :
    (ofRoots roots).definitionsFrom (l + 1) name = [] := by
  have hblock : ∀ k, ((ofRoots roots).definition? k name).isSome →
      ∃ root ∈ roots[k]?, Node.hasBlock name root = true := by
    intro k hk
    obtain ⟨root, hroot, block, hblock, hname⟩ := isSome_definition?_iff.mp hk
    exact ⟨root, hroot, List.any_eq_true.mpr ⟨block, hblock, by simpa using hname⟩⟩
  rw [List.eq_nil_iff_forall_not_mem]
  rintro ⟨m, body⟩ hmem
  obtain ⟨hlt, hbody⟩ := mem_definitionsFrom.mp hmem
  obtain ⟨above, habove, hhas⟩ := hblock l hl
  obtain ⟨below, hbelow, hhasBelow⟩ := hblock m (Option.isSome_of_eq_some hbody)
  -- one of the two layers is among the first `m`, and the other one is not
  have hfront : 0 < (roots.take m).countP (Node.hasBlock name) := by
    refine List.countP_pos_iff.mpr ⟨above, ?_, hhas⟩
    obtain ⟨_, rfl⟩ := List.getElem?_eq_some_iff.mp habove
    exact List.mem_take_iff_getElem.mpr ⟨l, by omega, rfl⟩
  have hback : 0 < (roots.drop m).countP (Node.hasBlock name) := by
    refine List.countP_pos_iff.mpr ⟨below, ?_, hhasBelow⟩
    rw [← List.head?_drop] at hbelow
    exact List.mem_of_mem_head? hbelow
  rw [← List.take_append_drop m roots, List.countP_append] at h
  omega

/-- **Unknown blocks are transparent.** If a name has no block callback and at most one layer has
closed blocks of it, then the chain compiles to the same code without these blocks, each of them
replaced by its children in its place. -/
theorem code_compileRoots_unwrapTree (registry : Registry) (roots : List Node) (name : String)
    (hunknown : registry.block? name = none)
    (hlayers : roots.countP (Node.hasBlock name) ≤ 1) :
    (Compiler.compileRoots registry (roots.map (Node.unwrapTree name))).code =
      (Compiler.compileRoots registry roots).code := by
  cases roots with
  | nil => rfl
  | cons root rest =>
    have hname : Dispensable registry (.ofRoots (root :: rest)) name :=
      ⟨hunknown, fun _ => OverrideChain.definitionsFrom_of_countP_le hlayers,
        fun _ _ _ => Moment.Placed.of_definition?⟩
    have hplaced : Moment.Placed (.ofRoots (root :: rest)) (.ofRoot root) := .ofRoot
    have hchain := OverrideChain.ofRoots_unwrap name (root :: rest)
    rw [List.map_cons] at hchain
    rw [List.map_cons, Compiler.compileRoots, Compiler.compileRoots, (compile_ofRoots ..).1,
      (compile_ofRoots ..).1, hchain]
    cases root with
    | root children =>
      rw [Node.unwrapTree, evaluateNode, evaluateNode]
      exact code_evaluateNodes_unwrap hname 0 [] [] none none .none_none (some 0) children hplaced
    | text | block | value | parent =>
      rw [code_evaluateNode_unwrapTree _ _ _ _ _ fun _ => rfl]
      exact code_evaluateNode_unwrap hname 0 [] [] none none .none_none (some 0) _ [] hplaced

/-- An overridden block that calls the parent inside an unknown block, with another one in it. -/
def wrappingChain : List Node :=
  [.root [plainBlock "X" [plainBlock "N" [.text "a", .parent ⟨parentName, .empty, ""⟩,
      plainBlock "N" [.text "b"]]]],
    .root [plainBlock "X" [.text "base"]]]

theorem code_compileRoots_unwrapTree_wrappingChain :
    Registry.empty.block? "N" = none ∧ wrappingChain.countP (Node.hasBlock "N") ≤ 1 ∧
      (Compiler.compileRoots .empty (wrappingChain.map (Node.unwrapTree "N"))).code =
        (Compiler.compileRoots .empty wrappingChain).code ∧
      (Compiler.compileRoots .empty wrappingChain).code = "abaseb" :=
  ⟨rfl, by decide, code_compileRoots_unwrapTree .empty wrappingChain "N" rfl (by decide), by cbv⟩

end LayeredTags
