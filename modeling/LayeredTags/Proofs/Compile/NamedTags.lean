import LayeredTags.Compile.Compiler
import LayeredTags.Proofs.Compile.Influence
import LayeredTags.Proofs.Node.Marks
import Mathlib

/-!
# What a compilation sees of a registry

A compilation asks the registry for the blocks that its sources open and for the values that they
hold, and for nothing else. A value of the parent's name is never asked for: the tree holds a call
of the parent in its place.

* `Registry.AgreesOn`, `Registry.AgreesAt`: two registries have the same callbacks for what tokens
  name, and for a node.
* `agreesAt_of_agreesOn`: all nodes of a tree are named by the tokens of its source.
* `evaluateNode_congr`: registries that agree at the nodes of a chain evaluate it alike.
* `compileLayers_congr`: the result of a whole chain.
-/

namespace LayeredTags

/-- Two registries have the same callbacks for the blocks that tokens open and for the values among
them, but for values of the parent's name. -/
structure Registry.AgreesOn (r other : Registry) (tokens : List Token) : Prop where
  blocks : ∀ name raw, .opening name raw ∈ tokens → r.block? name = other.block? name
  values : ∀ name raw, .value name raw ∈ tokens → name ≠ parentName →
    r.value? name = other.value? name

def Registry.AgreesAt (r other : Registry) : Node → Prop
  | .block tag _ _ => r.block? tag.name = other.block? tag.name
  | .value tag => r.value? tag.name = other.value? tag.name
  | .root _ | .text _ | .parent _ => True

theorem agreesAt_of_agreesOn {r other : Registry} {source : String}
    (h : r.AgreesOn other (tokenize source)) :
    ∀ node ∈ (parse source).root.subtrees, r.AgreesAt other node := by
  intro node hnode
  cases node with
  | root | text | parent => trivial
  | block tag closed children =>
    exact h.blocks tag.name tag.raw (opening_mem_tokenize_iff.mpr ⟨_, hnode, rfl⟩)
  | value tag =>
    exact h.values tag.name tag.raw (value_mem_tokenize_iff.mpr ⟨_, hnode, rfl⟩)
      (tagRead_of_mem_subtrees hnode).2

/-! ## Evaluation -/

namespace Node

mutual

theorem mem_subtrees_of_innerBlocks {block : Block} {n : Node}
    (hn : n ∈ subtreesList block.children) : ∀ node : Node, block ∈ node.innerBlocks →
      n ∈ node.subtrees
  | .block tag true children, h => by
    rw [subtrees]
    rcases List.mem_cons.mp h with rfl | h
    · exact .tail _ hn
    · exact .tail _ (mem_subtreesList_of_innerBlocks hn children h)
  | .block _ false _, h | .root _, h | .text _, h | .value _, h | .parent _, h => nomatch h

theorem mem_subtreesList_of_innerBlocks {block : Block} {n : Node}
    (hn : n ∈ subtreesList block.children) : ∀ nodes : List Node, block ∈ innerBlocksList nodes →
      n ∈ subtreesList nodes
  | node :: rest, h => by
    rw [subtreesList, List.mem_append]
    exact (List.mem_append.mp h).imp (mem_subtrees_of_innerBlocks hn node)
      (mem_subtreesList_of_innerBlocks hn rest)

end

theorem mem_subtrees_of_closedBlocks {root n : Node} {block : Block}
    (hblock : block ∈ root.closedBlocks) (hn : n ∈ subtreesList block.children) :
    n ∈ root.subtrees := by
  cases root with
  | root children =>
    rw [subtrees]
    exact .tail _ (mem_subtreesList_of_innerBlocks hn children hblock)
  | text | block | value | parent => exact mem_subtrees_of_innerBlocks hn _ hblock

end Node

/-- Two registries agree at everything that definitions of a chain hold. -/
def Registry.AgreesIn (r other : Registry) (chain : OverrideChain) : Prop :=
  ∀ l name body, chain.definition? l name = some body →
    ∀ n ∈ Node.subtreesList body.children, r.AgreesAt other n

theorem agreesIn_ofRoots {r other : Registry} {roots : List Node}
    (h : ∀ root ∈ roots, ∀ n ∈ root.subtrees, r.AgreesAt other n) :
    r.AgreesIn other (.ofRoots roots) := by
  intro l name body hbody n hn
  obtain ⟨_, block, hblocks, hblock, -, hchildren⟩ :=
    OverrideChain.exists_block_of_definition? hbody
  obtain ⟨root, hroot, rfl⟩ := List.mem_map.mp (List.mem_of_getElem? hblocks)
  rw [← hchildren] at hn
  exact h root hroot n
    (Node.mem_subtrees_of_closedBlocks (List.mem_of_getElem? hblock) hn)

section evaluation

variable {r other : Registry} {chain : OverrideChain}

/-- Two registries agree at everything that calls of the parent have ahead of them. -/
def Heritage.AgreesIn (r other : Registry) {layer : Nat}
    (heritage : Option (Heritage chain layer)) : Prop :=
  ∀ h ∈ heritage, ∀ d ∈ h.definitions, ∀ n ∈ Node.subtreesList d.2.children, r.AgreesAt other n

theorem Heritage.AgreesIn.enter {layer : Nat} {heritage : Option (Heritage chain layer)}
    {name : String} (hheritage : Heritage.AgreesIn r other heritage)
    (hchain : r.AgreesIn other chain) :
    Heritage.AgreesIn r other (Heritage.enter name heritage) := by
  rw [Heritage.enter]
  split
  · exact hheritage
  · rintro _ ⟨⟩ ⟨l, body⟩ hd
    exact hchain l name body (OverrideChain.mem_definitionsFrom.mp hd).2

theorem Registry.emitBlock_congr {tag : Tag} (h : r.block? tag.name = other.block? tag.name)
    (inner : Emission) : r.emitBlock tag inner = other.emitBlock tag inner := by
  rw [emitBlock, emitBlock, h]

theorem Registry.emitValue_congr {tag : Tag} (h : r.value? tag.name = other.value? tag.name) :
    r.emitValue tag = other.emitValue tag := by
  rw [emitValue, emitValue, h]

mutual

theorem evaluateNode_congr (hchain : r.AgreesIn other chain) (layer : Nat) (active : List String)
    (heritage : Option (Heritage chain layer)) (hheritage : Heritage.AgreesIn r other heritage)
    (place : Option Nat) (node : Node) (hnode : ∀ n ∈ node.subtrees, r.AgreesAt other n) :
    evaluateNode r chain layer active heritage place node =
      evaluateNode other chain layer active heritage place node := by
  match node with
  | .root children =>
    rw [Node.subtrees] at hnode
    rw [evaluateNode, evaluateNode]
    exact evaluateNodes_congr hchain layer active heritage hheritage place children
      (List.forall_mem_cons.mp hnode).2
  | .text content => rw [evaluateNode, evaluateNode]
  | .block tag false children => rw [evaluateNode, evaluateNode]
  | .value tag =>
    rw [Node.subtrees] at hnode
    rw [evaluateNode, evaluateNode]
    have hvalue : r.AgreesAt other (.value tag) := hnode _ (List.mem_singleton_self _)
    exact Registry.emitValue_congr hvalue
  | .block tag true children =>
    rw [Node.subtrees] at hnode
    obtain ⟨htag, hchildren⟩ := List.forall_mem_cons.mp hnode
    rw [evaluateNode, evaluateNode, Registry.emitBlock_congr htag]
    congr 1
    split
    · exact evaluateNodes_congr hchain layer _ _ (hheritage.enter hchain) _ children hchildren
    · exact evaluateNodes_congr hchain layer _ _ hheritage _ children hchildren
  | .parent tag =>
    cases heritage with
    | none => rw [evaluateNode_parent_none, evaluateNode_parent_none]
    | some h =>
      cases hdefs : h.definitions with
      | nil => rw [evaluateNode_parent_nil hdefs, evaluateNode_parent_nil hdefs]
      | cons next rest =>
        obtain ⟨l, body⟩ := next
        have hlt := h.lt_of_definitions_eq hdefs
        have hall := hheritage h rfl
        rw [hdefs] at hall
        obtain ⟨hbody, hrest⟩ := List.forall_mem_cons.mp hall
        rw [evaluateNode_parent_cons hdefs, evaluateNode_parent_cons hdefs]
        refine evaluateNodes_congr hchain l active (some (h.behind hdefs)) ?_ _ body.children hbody
        rintro _ ⟨⟩
        exact hrest
termination_by (chain.depth - layer, sizeOf node)

theorem evaluateNodes_congr (hchain : r.AgreesIn other chain) (layer : Nat) (active : List String)
    (heritage : Option (Heritage chain layer)) (hheritage : Heritage.AgreesIn r other heritage)
    (place : Option Nat) (nodes : List Node)
    (hnodes : ∀ n ∈ Node.subtreesList nodes, r.AgreesAt other n) :
    evaluateNodes r chain layer active heritage place nodes =
      evaluateNodes other chain layer active heritage place nodes := by
  match nodes with
  | [] => rw [evaluateNodes, evaluateNodes]
  | node :: rest =>
    rw [Node.subtreesList] at hnodes
    obtain ⟨hnode, hrest⟩ := List.forall_mem_append.mp hnodes
    rw [evaluateNodes, evaluateNodes,
      evaluateNode_congr hchain layer active heritage hheritage _ node hnode,
      evaluateNodes_congr hchain layer active heritage hheritage _ rest hrest]
termination_by (chain.depth - layer, sizeOf nodes)

end

end evaluation

/-! ## Whole chains -/

theorem compileRoots_congr {r other : Registry} {roots : List Node}
    (h : ∀ root ∈ roots, ∀ n ∈ root.subtrees, r.AgreesAt other n) :
    Compiler.compileRoots r roots = Compiler.compileRoots other roots := by
  cases roots with
  | nil => rfl
  | cons root rest =>
    rw [Compiler.compileRoots, Compiler.compileRoots, (compile_ofRoots ..).1,
      (compile_ofRoots ..).1]
    have hnone : Heritage.AgreesIn r other (none : Option (Heritage (.ofRoots (root :: rest)) 0)) :=
      fun heritage hmem => absurd hmem (Option.not_mem_none heritage)
    exact evaluateNode_congr (agreesIn_ofRoots h) 0 [] none hnone (some 0) root (h root (.head _))

theorem permissive_congr {r other : Registry} {sources : List String}
    (h : ∀ source ∈ sources, r.AgreesOn other (tokenize source)) :
    Compiler.permissive r sources = Compiler.permissive other sources := by
  have hroots : Compiler.compileRoots r ((sources.map parse).map (·.root)) =
      Compiler.compileRoots other ((sources.map parse).map (·.root)) := by
    refine compileRoots_congr fun root hroot => ?_
    obtain ⟨outcome, houtcome, rfl⟩ := List.mem_map.mp hroot
    obtain ⟨source, hsource, rfl⟩ := List.mem_map.mp houtcome
    exact agreesAt_of_agreesOn (h source hsource)
  rw [Compiler.permissive, Compiler.permissive, hroots]

theorem Registry.agreesOn_register_parent (r : Registry) (callback : Callback)
    (tokens : List Token) :
    (r.register ⟨.value, parentName, callback⟩).AgreesOn r tokens where
  blocks _ _ _ := rfl
  values name raw _ hname := by
    rw [Registry.value?, Registry.register, TagTable.get?_insert, if_neg hname, Registry.value?]

/-- **What a compilation sees of a registry.** In either mode, registries that agree on the blocks
that the sources open and on their values, but for those of the parent's name, give the same result,
be it code, mistakes or an error. So a value of the parent's name never changes a result. -/
theorem compileLayers_congr (strict : Bool) (sources : List String) :
    (∀ r other : Registry, (∀ source ∈ sources, r.AgreesOn other (tokenize source)) →
      (Compiler.mk r strict).compileLayers sources =
        (Compiler.mk other strict).compileLayers sources) ∧
    ∀ (r : Registry) (callback : Callback),
      (Compiler.mk (r.register ⟨.value, parentName, callback⟩) strict).compileLayers sources =
        (Compiler.mk r strict).compileLayers sources := by
  have hcongr : ∀ r other : Registry, (∀ source ∈ sources, r.AgreesOn other (tokenize source)) →
      (Compiler.mk r strict).compileLayers sources =
        (Compiler.mk other strict).compileLayers sources := by
    intro r other h
    rw [Compiler.compileLayers, Compiler.compileLayers, permissive_congr h]
  exact ⟨hcongr, fun r callback => hcongr _ _ fun source _ =>
    r.agreesOn_register_parent callback (tokenize source)⟩

/-- A layer that asks for a block, a value and the parent, over one that has the block alone. -/
def askingSources : List String :=
  ["<tag:A>x\x7b\x7btag:Parent\x7d\x7d</tag:A>\x7b\x7btag:V\x7d\x7d", "<tag:A>y</tag:A>"]

def askedRegistry : Registry :=
  Registry.empty.registerAll
    [⟨.block, "A", fun _ _ children => children⟩, ⟨.value, "V", fun _ _ _ => "v"⟩]

/-- The same with tags of other names, of the same name and the other kind, and of the parent's
name. -/
def crowdedRegistry : Registry :=
  askedRegistry.registerAll
    [⟨.block, "B", fun _ _ _ => "b"⟩, ⟨.block, "V", fun _ _ _ => "b"⟩,
      ⟨.value, "A", fun _ _ _ => "a"⟩, ⟨.value, parentName, fun _ _ _ => "p"⟩]

theorem compileLayers_congr_crowdedRegistry :
    (∀ source ∈ askingSources, crowdedRegistry.AgreesOn askedRegistry (tokenize source)) ∧
      (Compiler.mk crowdedRegistry true).compileLayers askingSources =
        (Compiler.mk askedRegistry true).compileLayers askingSources ∧
      (Compiler.mk askedRegistry true).compileLayers askingSources =
        .ok ⟨"xyv", [], [⟨.block, "A"⟩, ⟨.value, "V"⟩]⟩ := by
  have htokens : askingSources.map tokenize =
      [[.opening "A" "", .text "x", .value "Parent" "", .closing "A" "</tag:A>", .value "V" ""],
        [.opening "A" "", .text "y", .closing "A" "</tag:A>"]] := by cbv
  have hagrees : ∀ source ∈ askingSources,
      crowdedRegistry.AgreesOn askedRegistry (tokenize source) := by
    intro source hsource
    have hblock : crowdedRegistry.block? "A" = askedRegistry.block? "A" := rfl
    have hvalue : crowdedRegistry.value? "V" = askedRegistry.value? "V" := rfl
    have hmem : tokenize source ∈ askingSources.map tokenize := List.mem_map_of_mem hsource
    rw [htokens] at hmem
    simp only [List.mem_cons, List.not_mem_nil, or_false] at hmem
    rcases hmem with heq | heq
    · rw [heq]
      refine ⟨by simpa using hblock, fun name raw hvalues hname => ?_⟩
      simp only [List.mem_cons, List.not_mem_nil, Token.value.injEq, reduceCtorEq, false_or,
        or_false] at hvalues
      rcases hvalues with ⟨rfl, -⟩ | ⟨rfl, -⟩
      · exact absurd rfl hname
      · exact hvalue
    · rw [heq]
      exact ⟨by simpa using hblock, by simp⟩
  exact ⟨hagrees, (compileLayers_congr true askingSources).1 _ _ hagrees, by cbv⟩

end LayeredTags
