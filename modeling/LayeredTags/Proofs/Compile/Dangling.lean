import LayeredTags.Compile.Compiler
import LayeredTags.Proofs.Node.Cut

/-!
# Unclosed blocks leave no trace

A block that stays open swallows the rest of its source. What a chain compiles to is what it
compiles to without these parts: neither the code nor the definitions of blocks in any layer see
anything below an unclosed block.

* `Node.closedBlocks_append_unclosed`: the definitions of a layer.
* `compileNodes_append_unclosed`: the code of the first layer.
* `compileLayers_cut`: the result of a whole chain.
-/

namespace LayeredTags

theorem Node.closedBlocks_append_unclosed (nodes : List Node) (tag : Tag) (inner : List Node) :
    (root (nodes ++ [block tag false inner])).closedBlocks = (root nodes).closedBlocks := by
  rw [closedBlocks_root, closedBlocks_root, innerBlocksList_append, innerBlocksList_cons,
    innerBlocks, innerBlocksList_nil, List.append_nil, List.append_nil]

theorem compileNodes_append_unclosed (registry : Registry) (chain : OverrideChain) (layer : Nat)
    (place : Option Nat) (nodes : List Node) (tag : Tag) (inner : List Node)
    (stack : OverrideStack Body) :
    compileNodes registry chain layer place (nodes ++ [.block tag false inner]) stack =
      compileNodes registry chain layer place nodes stack := by
  induction nodes generalizing place stack with
  | nil =>
    have hnode : ∀ place, compileNode registry chain layer place (.block tag false inner) stack =
        (.empty, stack) := by
      intro place
      rw [compileNode]
    rw [List.nil_append, compileNodes, compileNodes, hnode, compileNodes]
    rfl
  | cons node rest ih =>
    rw [List.cons_append, compileNodes, compileNodes, ih]

theorem ofRoots_cut (sources : List String) :
    OverrideChain.ofRoots (sources.map fun source => (parse (cut source)).root) =
      OverrideChain.ofRoots (sources.map fun source => (parse source).root) := by
  rw [OverrideChain.ofRoots, OverrideChain.ofRoots, List.map_map, List.map_map]
  refine congrArg OverrideChain.mk (List.map_congr_left fun source _ => ?_)
  show (parse (cut source)).root.closedBlocks = (parse source).root.closedBlocks
  obtain ⟨children, unclosed, hcut, hwhole, hunclosed⟩ := exists_parse_root_cut source
  rw [hcut, hwhole]
  rcases hunclosed with rfl | ⟨tag, inner, rfl⟩
  · rw [List.append_nil]
  · exact (Node.closedBlocks_append_unclosed children tag inner).symm

theorem compileRoots_cut (registry : Registry) (sources : List String) :
    Compiler.compileRoots registry (sources.map fun source => (parse (cut source)).root) =
      Compiler.compileRoots registry (sources.map fun source => (parse source).root) := by
  have hchain := ofRoots_cut sources
  cases sources with
  | nil => rfl
  | cons first rest =>
    obtain ⟨children, unclosed, hcut, hwhole, hunclosed⟩ := exists_parse_root_cut first
    simp only [List.map_cons] at hchain ⊢
    simp only [Compiler.compileRoots, CompileContext.ofRoots, CompileContext.compile]
    rw [hchain, hcut, hwhole, compileNode, compileNode]
    rcases hunclosed with rfl | ⟨tag, inner, rfl⟩
    · rw [List.append_nil]
    · rw [compileNodes_append_unclosed]

/-- **Unclosed blocks leave no trace.** Cutting every source of a chain before its outermost
unclosed block changes neither the code nor the mistakes of compiling, which come behind those of
reading. Reading a cut source meets no unclosed block. -/
theorem compileLayers_cut (registry : Registry) (sources : List String) :
    (∃ code mistakes calls,
      Compiler.compileLayers ⟨registry, false⟩ sources =
        .ok ⟨code, (sources.flatMap fun source => (parse source).diagnostics) ++ mistakes, calls⟩ ∧
      Compiler.compileLayers ⟨registry, false⟩ (sources.map cut) =
        .ok ⟨code, ((sources.map cut).flatMap fun source => (parse source).diagnostics) ++ mistakes,
          calls⟩) ∧
      ∀ source, ∀ d ∈ (parse (cut source)).diagnostics, d.kind ≠ .unclosedBlock := by
  have hpermissive : ∀ layers : List String, Compiler.compileLayers ⟨registry, false⟩ layers =
      .ok { Compiler.compileRoots registry (layers.map fun source => (parse source).root) with
        diagnostics := (layers.flatMap fun source => (parse source).diagnostics) ++
          (Compiler.compileRoots registry
            (layers.map fun source => (parse source).root)).diagnostics } := by
    intro layers
    rw [Compiler.compileLayers, Compiler.permissive, List.map_map, List.flatMap_map]
    exact if_neg fun h => Bool.false_ne_true h.1
  refine ⟨⟨_, _, _, hpermissive sources, ?_⟩, fun source d hd => kind_of_mem_diagnostics_cut hd⟩
  rw [hpermissive, List.map_map, ← compileRoots_cut]
  rfl

end LayeredTags
