import LayeredTags.Compile.Pass
import LayeredTags.Proofs.Override.Owner
import Mathlib.Data.List.Nodup

/-!
# Compiling with environments instead of a stack

A second account of what a chain compiles to. It has no state: a node is evaluated in a layer,
under the names of the blocks that are being evaluated and with the heritage that calls of the
parent use up. `compileNode_eq_evaluateNode` shows that a pass with the stack yields the same
emission and leaves the stack as it was.

* `Heritage`: an overridden block with the less specific definitions that are left of it.
* `evaluateNode`, `evaluateNodes`: what a node and a list of siblings yield in an environment.
* `Tracks`: the relation between a stack and an environment.
* `compileNode_eq_evaluateNode`: a pass yields what the evaluation yields.

The proof follows the recursion of the pass, with `Tracks` as its invariant. A block that is
entered and a call of the parent both change the stack; that each of them is undone is
`OverrideStack.pop_push` and `OverrideStack.retreat_advance`.
-/

namespace LayeredTags

/-- An overridden block and those of its definitions that calls of the parent have not reached, in
the order of their layers. All of them are less specific than the layer that is being compiled. -/
structure Heritage (chain : OverrideChain) (layer : Nat) where
  name : String
  definitions : List (Nat × Body)
  ascending : definitions.Pairwise fun a b => a.1 < b.1
  lessSpecific : ∀ d ∈ definitions, layer < d.1 ∧ d.1 < chain.depth

namespace Heritage

variable {chain : OverrideChain} {layer : Nat}

/-- All definitions of a block behind a layer. -/
def below (chain : OverrideChain) (layer : Nat) (name : String) : Heritage chain layer where
  name := name
  definitions := chain.definitionsFrom (layer + 1) name
  ascending := OverrideChain.pairwise_definitionsFrom
  lessSpecific _ hd :=
    have hmem := OverrideChain.mem_definitionsFrom.mp hd
    ⟨hmem.1, OverrideChain.lt_depth_of_definition? hmem.2⟩

/-- The heritage inside a definition of a block: the definitions in less specific layers, or what
there was outside if there is none. -/
def enter (name : String) (outside : Option (Heritage chain layer)) :
    Option (Heritage chain layer) :=
  if chain.definitionsFrom (layer + 1) name = [] then outside else some (below chain layer name)

/-- The heritage inside the first of the definitions. -/
def behind (h : Heritage chain layer) {l : Nat} {body : Body} {rest : List (Nat × Body)}
    (hdefs : h.definitions = (l, body) :: rest) : Heritage chain l where
  name := h.name
  definitions := rest
  ascending := (List.pairwise_cons.mp (hdefs ▸ h.ascending)).2
  lessSpecific d hd :=
    ⟨(List.pairwise_cons.mp (hdefs ▸ h.ascending)).1 d hd,
      (h.lessSpecific d (hdefs ▸ List.mem_cons_of_mem _ hd)).2⟩

theorem lt_of_definitions_eq (h : Heritage chain layer) {l : Nat} {body : Body}
    {rest : List (Nat × Body)} (hdefs : h.definitions = (l, body) :: rest) :
    layer < l ∧ l < chain.depth :=
  h.lessSpecific (l, body) (hdefs ▸ List.mem_cons_self)

end Heritage

mutual

/-- What a node yields in a layer. The active names are those of the blocks that are being
evaluated as definitions, the innermost last. -/
def evaluateNode (registry : Registry) (chain : OverrideChain) (layer : Nat)
    (active : List String) (heritage : Option (Heritage chain layer)) (place : Option Nat)
    (node : Node) : Emission :=
  match node with
  | .root children => evaluateNodes registry chain layer active heritage place children
  | .text content => .ofCode content
  | .block _ false _ => .empty
  | .block tag true children =>
    registry.emitBlock tag
      (if tag.name ∉ active ∧ chain.isDefinition layer place tag.name then
        evaluateNodes registry chain layer (active ++ [tag.name]) (Heritage.enter tag.name heritage)
          (place.map (· + 1)) children
      else evaluateNodes registry chain layer active heritage (place.map (· + 1)) children)
  | .value tag => registry.emitValue tag
  | .parent _ =>
    match heritage with
    | none => .ofMistake .parentWithoutLayer (active.getLast?.getD parentName)
    | some h =>
      match hdefs : h.definitions with
      | [] => .ofMistake .parentWithoutLayer (active.getLast?.getD parentName)
      | (l, body) :: _ =>
        evaluateNodes registry chain l active (some (h.behind hdefs)) (some (body.number + 1))
          body.children
termination_by (chain.depth - layer, sizeOf node)
decreasing_by
  all_goals first
    | (have hlt := h.lt_of_definitions_eq hdefs; exact Prod.Lex.left _ _ (by omega))
    | (apply Prod.Lex.right; simp +arith)

/-- What siblings yield, one after the other; the first closed block among them stands at
`place`. -/
def evaluateNodes (registry : Registry) (chain : OverrideChain) (layer : Nat)
    (active : List String) (heritage : Option (Heritage chain layer)) (place : Option Nat)
    (nodes : List Node) : Emission :=
  match nodes with
  | [] => .empty
  | node :: rest =>
    evaluateNode registry chain layer active heritage (node.placeIn place) node ++
      evaluateNodes registry chain layer active heritage (place.map (· + node.blockCount)) rest
termination_by (chain.depth - layer, sizeOf nodes)

end

section parent

variable {registry : Registry} {chain : OverrideChain} {layer : Nat} {active : List String}
  {place : Option Nat} {tag : Tag}

theorem evaluateNode_parent_none :
    evaluateNode registry chain layer active none place (.parent tag) =
      .ofMistake .parentWithoutLayer (active.getLast?.getD parentName) := by
  rw [evaluateNode]

theorem evaluateNode_parent_nil {h : Heritage chain layer} (hdefs : h.definitions = []) :
    evaluateNode registry chain layer active (some h) place (.parent tag) =
      .ofMistake .parentWithoutLayer (active.getLast?.getD parentName) := by
  rw [evaluateNode]
  split
  · rfl
  · rename_i hcons
    rw [hdefs] at hcons
    cases hcons

theorem evaluateNode_parent_cons {h : Heritage chain layer} {l : Nat} {body : Body}
    {rest : List (Nat × Body)} (hdefs : h.definitions = (l, body) :: rest) :
    evaluateNode registry chain layer active (some h) place (.parent tag) =
      evaluateNodes registry chain l active (some (h.behind hdefs)) (some (body.number + 1))
        body.children := by
  rw [evaluateNode]
  split
  · rename_i hnil
    rw [hdefs] at hnil
    cases hnil
  · rename_i hcons
    obtain ⟨hnext, rfl⟩ := List.cons.inj (hdefs.symm.trans hcons)
    obtain ⟨rfl, rfl⟩ := Prod.mk.inj hnext
    rfl

end parent

/-! ## The stack against the environment -/

/-- The stack of a pass and the environment of an evaluation agree: the same names are active, each
once, and calls of the parent have the same definitions ahead of them. -/
structure Tracks {chain : OverrideChain} {layer : Nat} (stack : OverrideStack Body)
    (active : List String) (heritage : Option (Heritage chain layer)) : Prop where
  names : stack.names = active.reverse
  distinct : active.Nodup
  inherited : stack.inherited? = heritage.map fun h => (h.name, h.definitions)

namespace Tracks

variable {chain : OverrideChain} {layer : Nat} {stack : OverrideStack Body} {active : List String}
  {heritage : Option (Heritage chain layer)} {name : String}

theorem empty : Tracks (.empty : OverrideStack Body) [] (none : Option (Heritage chain layer)) :=
  ⟨rfl, List.nodup_nil, rfl⟩

theorem mem_names_iff (ht : Tracks stack active heritage) : name ∈ stack.names ↔ name ∈ active := by
  rw [ht.names, List.mem_reverse]

theorem nodup_names (ht : Tracks stack active heritage) : stack.names.Nodup := by
  rw [ht.names, List.nodup_reverse]
  exact ht.distinct

theorem current?_eq (ht : Tracks stack active heritage) : stack.current? = active.getLast? := by
  rw [OverrideStack.current?_eq_head?, ht.names, List.head?_reverse]

theorem push (ht : Tracks stack active heritage) (hname : name ∉ active) (own : Nat × Body) :
    Tracks (stack.push name (own :: chain.definitionsFrom (layer + 1) name)) (active ++ [name])
      (Heritage.enter name heritage) where
  names := by
    rw [OverrideStack.names_push (mt ht.mem_names_iff.mp hname) (by simp), ht.names]
    simp
  distinct := by
    rw [List.nodup_append]
    refine ⟨ht.distinct, List.nodup_singleton name, ?_⟩
    rintro a ha b hb rfl
    exact hname (List.mem_singleton.mp hb ▸ ha)
  inherited := by
    have hnames := mt ht.mem_names_iff.mp hname
    rw [Heritage.enter]
    split
    · rename_i hnil
      rw [hnil, OverrideStack.inherited?_push_singleton hnames, ht.inherited]
    · rename_i hcons
      rw [OverrideStack.inherited?_push_cons hnames hcons]
      rfl

end Tracks

mutual

theorem compileNode_eq_evaluateNode (registry : Registry) (chain : OverrideChain) (layer : Nat)
    (active : List String) (heritage : Option (Heritage chain layer)) (place : Option Nat)
    (node : Node) (stack : OverrideStack Body) (ht : Tracks stack active heritage) :
    compileNode registry chain layer place node stack =
      (evaluateNode registry chain layer active heritage place node, stack) := by
  match node with
  | .root children =>
    rw [compileNode, evaluateNode]
    exact compileNodes_eq_evaluateNodes registry chain layer active heritage place children stack ht
  | .text content => rw [compileNode, evaluateNode]
  | .block tag false children => rw [compileNode, evaluateNode]
  | .value tag => rw [compileNode, evaluateNode]
  | .block tag true children =>
    rw [compileNode, evaluateNode]
    by_cases hdef : tag.name ∉ active ∧ chain.isDefinition layer place tag.name
    · -- the definition of an inactive name is entered, and left again behind its children
      obtain ⟨hname, hdefinition⟩ := hdef
      obtain ⟨own, hown, hplace⟩ := OverrideChain.isDefinition_iff.mp hdefinition
      have hnames := mt ht.mem_names_iff.mp hname
      have hbodies := OverrideChain.layeredBodies?_eq_some_iff.mpr
        ⟨OverrideStack.isActive_eq_false_iff.mpr hnames, own, hown, hplace, rfl⟩
      have hinner := compileNodes_eq_evaluateNodes registry chain layer (active ++ [tag.name])
        (Heritage.enter tag.name heritage) (place.map (· + 1)) children _
        (ht.push hname (layer, own))
      rw [hbodies, if_pos ⟨hname, hdefinition⟩]
      simp only
      rw [hinner, OverrideStack.pop_push hnames (by simp)]
    · have hnone : chain.layeredBodies? layer place tag.name stack = none := by
        apply OverrideChain.layeredBodies?_eq_none
        rw [OverrideStack.isActive_iff, ht.mem_names_iff]
        simpa [or_iff_not_imp_left] using hdef
      have hinner := compileNodes_eq_evaluateNodes registry chain layer active heritage
        (place.map (· + 1)) children stack ht
      rw [hnone, if_neg hdef]
      simp only
      rw [hinner]
  | .parent tag =>
    cases heritage with
    | none =>
      rw [compileNode, evaluateNode_parent_none,
        OverrideStack.advance_of_inherited_none ht.inherited]
      simp only
      rw [ht.current?_eq]
    | some h =>
      have hinherited := ht.inherited
      rw [Option.map_some] at hinherited
      rw [compileNode]
      cases hdefs : h.definitions with
      | nil =>
        rw [hdefs] at hinherited
        rw [evaluateNode_parent_nil hdefs, OverrideStack.advance_of_inherited_nil hinherited]
        simp only
        rw [ht.current?_eq]
      | cons next rest =>
        obtain ⟨l, body⟩ := next
        rw [hdefs] at hinherited
        obtain ⟨t, hadvance, hnames, hrest⟩ := OverrideStack.advance_of_inherited hinherited
        have hlt := h.lt_of_definitions_eq hdefs
        have htracks : Tracks t active (some (h.behind hdefs)) :=
          ⟨hnames.trans ht.names, ht.distinct, hrest⟩
        have hinner := compileNodes_eq_evaluateNodes registry chain l active
          (some (h.behind hdefs)) (some (body.number + 1)) body.children t htracks
        have hback := OverrideStack.retreat_advance ht.nodup_names hadvance
        rw [evaluateNode_parent_cons hdefs, hadvance]
        simp only
        rw [if_pos hlt, hinner]
        exact congrArg _ hback
termination_by (chain.depth - layer, sizeOf node)

theorem compileNodes_eq_evaluateNodes (registry : Registry) (chain : OverrideChain) (layer : Nat)
    (active : List String) (heritage : Option (Heritage chain layer)) (place : Option Nat)
    (nodes : List Node) (stack : OverrideStack Body) (ht : Tracks stack active heritage) :
    compileNodes registry chain layer place nodes stack =
      (evaluateNodes registry chain layer active heritage place nodes, stack) := by
  match nodes with
  | [] => rw [compileNodes, evaluateNodes]
  | node :: rest =>
    rw [compileNodes, evaluateNodes]
    rw [compileNode_eq_evaluateNode registry chain layer active heritage (node.placeIn place) node
      stack ht]
    rw [compileNodes_eq_evaluateNodes registry chain layer active heritage
      (place.map (· + node.blockCount)) rest stack ht]
termination_by (chain.depth - layer, sizeOf nodes)

end

theorem Owned.tracks {chain : OverrideChain} {layer : Nat} {stack : OverrideStack Body}
    {owner : Option String} (ho : Owned chain layer stack owner) :
    Tracks stack stack.names.reverse (owner.map (Heritage.below chain layer)) where
  names := (List.reverse_reverse _).symm
  distinct := List.nodup_reverse.mpr ho.distinct
  inherited := by
    rw [ho.inherited, Option.map_map]
    rfl

theorem Owned.compileNode_stack {registry : Registry} {chain : OverrideChain} {layer : Nat}
    {stack : OverrideStack Body} {owner : Option String} {place : Option Nat} {node : Node}
    (ho : Owned chain layer stack owner) :
    (compileNode registry chain layer place node stack).2 = stack := by
  rw [compileNode_eq_evaluateNode registry chain layer _ _ place node stack ho.tracks]

/-- **A pass over a chain yields what the evaluation yields.** The node may stand anywhere; the
context is left as it was but for the mistakes, which are those of the evaluation. -/
theorem compile_ofRoots_eq_evaluateNode (registry : Registry) (roots : List Node)
    (place : Option Nat) (node : Node) :
    (CompileContext.ofRoots registry roots).compile place node =
      (evaluateNode registry (.ofRoots roots) 0 [] none place node,
        { CompileContext.ofRoots registry roots with
          diagnostics :=
            (evaluateNode registry (.ofRoots roots) 0 [] none place node).diagnostics }) := by
  have hpass := compileNode_eq_evaluateNode registry (.ofRoots roots) 0 [] none place node .empty
    Tracks.empty
  simp only [CompileContext.compile, CompileContext.ofRoots]
  rw [hpass]
  rfl

end LayeredTags
