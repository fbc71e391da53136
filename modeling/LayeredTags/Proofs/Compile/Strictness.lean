import LayeredTags.Compile.Compiler
import LayeredTags.Proofs.Compile.Influence
import LayeredTags.Proofs.Node.Bracketing
import LayeredTags.Proofs.Node.Marks

/-!
# What strict mode accepts

Compiling a single source comes to every node that is not below an unclosed block, so each mistake
is reported once it is there, also inside a block whose callback drops its children. Strict mode
thus accepts a source if and only if it is well bracketed and the registry serves every token.

* `Registry.Serves`, `Registry.ServesNode`: there is a callback for a token and for a node; a call
  of the parent is never served, since a single source has no less specific layer.
* `diagnostics_evaluateNode_eq_nil_iff`: a tree without unclosed blocks compiles without a mistake
  if and only if its nodes are served.
* `forall_servesNode_iff`: these are the trees of tokens that are served.
* `compileSource_strict`: the result of strict mode.
-/

namespace LayeredTags

namespace Registry

/-- The registry has a callback for the block that a token opens or for the value that it is. A
value of the parent's name is not served. -/
def Serves (r : Registry) : Token → Prop
  | .opening name _ => (r.block? name).isSome
  | .value name _ => name ≠ parentName ∧ (r.value? name).isSome
  | .text _ | .closing _ _ => True

instance (r : Registry) : ∀ t : Token, Decidable (r.Serves t)
  | .opening name _ => inferInstanceAs (Decidable ((r.block? name).isSome))
  | .value name _ => inferInstanceAs (Decidable (name ≠ parentName ∧ (r.value? name).isSome))
  | .text _ | .closing _ _ => inferInstanceAs (Decidable True)

/-- The registry has a callback for a node, if it is a block or a value. A call of the parent is not
served. -/
def ServesNode (r : Registry) : Node → Prop
  | .block tag _ _ => (r.block? tag.name).isSome
  | .value tag => (r.value? tag.name).isSome
  | .parent _ => False
  | .root _ | .text _ => True

variable {r : Registry} {tag : Tag}

theorem diagnostics_emitBlock_eq_nil_iff {inner : Emission} :
    (r.emitBlock tag inner).diagnostics = [] ↔
      (r.block? tag.name).isSome ∧ inner.diagnostics = [] := by
  rw [emitBlock]
  cases r.block? tag.name with
  | none => simp
  | some callback => simp

theorem diagnostics_emitValue_eq_nil_iff :
    (r.emitValue tag).diagnostics = [] ↔ (r.value? tag.name).isSome := by
  rw [emitValue]
  cases r.value? tag.name with
  | none => simp [Emission.ofMistake]
  | some callback => simp

end Registry

/-! ## Mistakes of a single layer -/

section single

variable (registry : Registry) {chain : OverrideChain} {layer : Nat}

mutual

theorem diagnostics_evaluateNode_eq_nil_iff
    (hlast : ∀ name, chain.definitionsFrom (layer + 1) name = []) (active : List String)
    (place : Option Nat) : ∀ node : Node, (∀ n ∈ node.subtrees, n.isUnclosed = false) →
      ((evaluateNode registry chain layer active none place node).diagnostics = [] ↔
        ∀ n ∈ node.subtrees, registry.ServesNode n)
  | .root children, hclosed => by
    rw [Node.subtrees, List.forall_mem_cons] at hclosed ⊢
    rw [evaluateNode, diagnostics_evaluateNodes_eq_nil_iff hlast active place children hclosed.2]
    exact (and_iff_right trivial).symm
  | .text content, _ => by
    rw [evaluateNode, Node.subtrees, List.forall_mem_singleton]
    exact iff_of_true rfl trivial
  | .block tag false children, hclosed => by
    rw [Node.subtrees, List.forall_mem_cons] at hclosed
    cases hclosed.1
  | .block tag true children, hclosed => by
    rw [Node.subtrees, List.forall_mem_cons] at hclosed ⊢
    -- a definition is entered without a heritage, just as every other block
    have hchildren := fun active =>
      diagnostics_evaluateNodes_eq_nil_iff hlast active (place.map (· + 1)) children hclosed.2
    rw [evaluateNode, Registry.diagnostics_emitBlock_eq_nil_iff, Heritage.enter, if_pos (hlast _)]
    refine and_congr Iff.rfl ?_
    split
    · exact hchildren _
    · exact hchildren _
  | .value tag, _ => by
    rw [evaluateNode, Node.subtrees, List.forall_mem_singleton]
    exact Registry.diagnostics_emitValue_eq_nil_iff
  | .parent tag, _ => by
    rw [evaluateNode_parent_none, Node.subtrees, List.forall_mem_singleton]
    exact iff_of_false (List.cons_ne_nil _ _) not_false

theorem diagnostics_evaluateNodes_eq_nil_iff
    (hlast : ∀ name, chain.definitionsFrom (layer + 1) name = []) (active : List String)
    (place : Option Nat) : ∀ nodes : List Node,
      (∀ n ∈ Node.subtreesList nodes, n.isUnclosed = false) →
      ((evaluateNodes registry chain layer active none place nodes).diagnostics = [] ↔
        ∀ n ∈ Node.subtreesList nodes, registry.ServesNode n)
  | [], _ => by
    rw [evaluateNodes, Node.subtreesList]
    exact iff_of_true rfl (List.forall_mem_nil _)
  | node :: rest, hclosed => by
    rw [Node.subtreesList, List.forall_mem_append] at hclosed ⊢
    rw [evaluateNodes,
      ← diagnostics_evaluateNode_eq_nil_iff hlast active (node.placeIn place) node hclosed.1,
      ← diagnostics_evaluateNodes_eq_nil_iff hlast active (place.map (· + node.blockCount)) rest
        hclosed.2]
    exact List.append_eq_nil_iff

end

end single

/-! ## Tokens and nodes -/

theorem forall_servesNode_iff {registry : Registry} {source : String} :
    (∀ node ∈ (parse source).root.subtrees, registry.ServesNode node) ↔
      ∀ t ∈ tokenize source, registry.Serves t := by
  constructor
  · intro h t ht
    cases t with
    | text | closing => trivial
    | opening name raw =>
      obtain ⟨node, hnode, hmark⟩ := opening_mem_tokenize_iff.mp ht
      cases node with
      | root | text | value | parent => cases hmark
      | block tag closed children =>
        obtain ⟨rfl, -⟩ := TreeEvent.enter.inj (Option.some.inj hmark)
        exact h _ hnode
    | value name raw =>
      obtain ⟨node, hnode, hmark⟩ := value_mem_tokenize_iff.mp ht
      cases node with
      | root | text | block => cases hmark
      | value tag =>
        obtain ⟨rfl, -⟩ := TreeEvent.value.inj (Option.some.inj hmark)
        exact ⟨(tagRead_of_mem_subtrees hnode).2, h _ hnode⟩
      | parent tag => exact (h _ hnode).elim
  · intro h node hnode
    cases node with
    | root | text => trivial
    | block tag closed children =>
      exact h (.opening tag.name tag.raw) (opening_mem_tokenize_iff.mpr ⟨_, hnode, rfl⟩)
    | value tag =>
      exact (h (.value tag.name tag.raw) (value_mem_tokenize_iff.mpr ⟨_, hnode, rfl⟩)).2
    | parent tag =>
      -- the name of a call of the parent is the one that is not served
      have hvalue := h (.value tag.name tag.raw) (value_mem_tokenize_iff.mpr ⟨_, hnode, rfl⟩)
      exact hvalue.1 (tagRead_of_mem_subtrees hnode).2

/-! ## Strict mode -/

theorem diagnostics_permissive_eq_nil_iff {registry : Registry} {source : String} :
    (Compiler.permissive registry [source]).diagnostics = [] ↔
      WellBracketed [] (tokenize source) ∧ ∀ t ∈ tokenize source, registry.Serves t := by
  have hlast : ∀ name, (OverrideChain.ofRoots [(parse source).root]).definitionsFrom (0 + 1) name =
      [] := fun _ => rfl
  have hemission : Compiler.compileRoots registry [(parse source).root] =
      evaluateNode registry (.ofRoots [(parse source).root]) 0 [] none (some 0)
        (parse source).root := (compile_ofRoots ..).1
  have hdiagnostics : (Compiler.permissive registry [source]).diagnostics =
      (parse source).diagnostics ++
        (Compiler.compileRoots registry [(parse source).root]).diagnostics := by
    rw [Compiler.permissive, List.map_singleton, List.map_singleton, List.flatMap_singleton]
  rw [hdiagnostics, List.append_eq_nil_iff, diagnostics_parse_eq_nil_iff, hemission]
  refine and_congr_right fun hbracketed => ?_
  rw [diagnostics_evaluateNode_eq_nil_iff registry hlast [] (some 0) _
    (isUnclosed_of_wellBracketed hbracketed), forall_servesNode_iff]

/-- **What strict mode accepts.** A source compiles in strict mode if and only if its tokens are
well bracketed, every block that they open and every value among them has a callback, and none is a
call of the parent. The result is then that of permissive mode, and otherwise it is an error with
exactly the mistakes that permissive mode reports. -/
theorem compileSource_strict (registry : Registry) (source : String) :
    ∃ emission, Compiler.compileLayers ⟨registry, false⟩ [source] = .ok emission ∧
      Compiler.compileSource ⟨registry, true⟩ source =
        if WellBracketed [] (tokenize source) ∧ ∀ t ∈ tokenize source, registry.Serves t then
          .ok emission
        else .error (.strict emission.diagnostics) := by
  refine ⟨Compiler.permissive registry [source], ?_, ?_⟩
  · rw [Compiler.compileLayers]
    exact if_neg fun h => Bool.false_ne_true h.1
  · rw [Compiler.compileSource, Compiler.compileLayers]
    simp only [true_and, ← diagnostics_permissive_eq_nil_iff, ne_eq, ite_not]

end LayeredTags
