import LayeredTags.Proofs.Compile.Environment
import Mathlib.Data.List.InsertIdx

/-!
# Layers without influence

A layer matters to a chain only where a call of the parent can come to it. If no more specific layer
has such a call, or none gives a name to a block that the layer gives too, the chain yields the same
without it.

* `OverrideChain.without`: a chain without one of its layers, and `wholeLayer`: the number that a
  layer had before.
* `evaluateNode_of_not_callsParent`: a node without a call of the parent yields the same everywhere.
* `evaluateNode_without`: evaluation in both chains at once, as long as no heritage comes to the
  layer.
* `compile_eraseIdx`: the pass over a chain without such a layer.
-/

namespace LayeredTags

/-! ## Chains without a layer -/

/-- The number that a layer has in the whole chain, given its number in the chain without layer
`i`. -/
def wholeLayer (i layer : Nat) : Nat :=
  if layer < i then layer else layer + 1

theorem wholeLayer_lt_wholeLayer {i k l : Nat} : wholeLayer i k < wholeLayer i l ↔ k < l := by
  unfold wholeLayer
  split_ifs <;> omega

theorem exists_wholeLayer {i l : Nat} (h : l ≠ i) : ∃ k, l = wholeLayer i k := by
  unfold wholeLayer
  by_cases hlt : l < i
  · exact ⟨l, (if_pos hlt).symm⟩
  · exact ⟨l - 1, by split_ifs <;> omega⟩

namespace OverrideChain

variable {chain : OverrideChain} {i l layer : Nat} {name : String} {place : Option Nat}

def without (chain : OverrideChain) (i : Nat) : OverrideChain :=
  ⟨chain.layers.eraseIdx i⟩

theorem definition?_without :
    (chain.without i).definition? l name = chain.definition? (wholeLayer i l) name := by
  rw [definition?, definition?, without, List.getElem?_eraseIdx, wholeLayer]
  split <;> rfl

theorem isDefinition_without :
    (chain.without i).isDefinition l place name =
      chain.isDefinition (wholeLayer i l) place name := by
  rw [isDefinition, isDefinition, definition?_without]

/-- Behind a layer the definitions of a name are the same in both chains, if the layer that is left
out does not lie behind or does not define the name. -/
theorem definitionsFrom_without (h : i ≤ l ∨ chain.definition? i name = none) :
    chain.definitionsFrom (wholeLayer i l + 1) name =
      ((chain.without i).definitionsFrom (l + 1) name).map (Prod.map (wholeLayer i) id) := by
  refine eq_of_mem_iff_of_pairwise pairwise_definitionsFrom (List.pairwise_map.mpr ?_)
    fun ⟨m, body⟩ => ?_
  · exact pairwise_definitionsFrom.imp wholeLayer_lt_wholeLayer.mpr
  · rw [mem_definitionsFrom, List.mem_map]
    constructor
    · rintro ⟨hlt, hbody⟩
      have hne : m ≠ i := by
        rintro rfl
        rcases h with hle | hnone
        · rw [wholeLayer, if_neg (Nat.not_lt.mpr hle)] at hlt
          omega
        · rw [hnone] at hbody
          cases hbody
      obtain ⟨k, rfl⟩ := exists_wholeLayer hne
      rw [← definition?_without] at hbody
      exact ⟨(k, body), mem_definitionsFrom.mpr ⟨wholeLayer_lt_wholeLayer.mp hlt, hbody⟩, rfl⟩
    · rintro ⟨⟨k, other⟩, hmem, heq⟩
      obtain ⟨rfl, rfl⟩ := Prod.mk.inj heq
      obtain ⟨hle, hbody⟩ := mem_definitionsFrom.mp hmem
      rw [definition?_without] at hbody
      exact ⟨wholeLayer_lt_wholeLayer.mpr hle, hbody⟩

/-- A layer defines no name that a more specific layer defines. -/
def StandsApart (chain : OverrideChain) (i : Nat) : Prop :=
  ∀ l < i, ∀ name, (chain.definition? l name).isSome → chain.definition? i name = none

theorem isSome_definition?_iff {roots : List Node} :
    ((ofRoots roots).definition? l name).isSome ↔
      ∃ root ∈ roots[l]?, ∃ block ∈ root.closedBlocks, block.tag.name = name := by
  rw [definition?, ofRoots, List.getElem?_map]
  cases roots[l]? with
  | none => simp
  | some root =>
    rw [Option.map_some, Option.bind_some, firstNamed?]
    cases hfirst : root.closedBlocks.findIdx? (·.tag.name = name) with
    | none => simpa using hfirst
    | some n =>
      obtain ⟨hn, hname, -⟩ := List.findIdx?_eq_some_iff_getElem.mp hfirst
      rw [Option.bind_some, List.getElem?_eq_getElem hn]
      exact iff_of_true rfl ⟨root, rfl, _, List.getElem_mem hn, by simpa using hname⟩

theorem standsApart_ofRoots {roots : List Node}
    (h : ∀ root ∈ roots[i]?, ∀ block ∈ root.closedBlocks, ∀ above ∈ roots.take i,
      ∀ other ∈ above.closedBlocks, other.tag.name ≠ block.tag.name) :
    (ofRoots roots).StandsApart i := by
  intro l hl name hother
  rw [Option.eq_none_iff_forall_ne_some]
  intro body hbody
  obtain ⟨root, hroot, block, hblock, hname⟩ :=
    isSome_definition?_iff.mp (Option.isSome_of_eq_some hbody)
  obtain ⟨above, habove, other, hmem, hsame⟩ := isSome_definition?_iff.mp hother
  refine h root hroot block hblock above ?_ other hmem (hsame.trans hname.symm)
  obtain ⟨hlength, rfl⟩ := List.getElem?_eq_some_iff.mp habove
  exact List.mem_take_iff_getElem.mpr ⟨l, by omega, rfl⟩

theorem ofRoots_eraseIdx (roots : List Node) :
    ofRoots (roots.eraseIdx i) = (ofRoots roots).without i :=
  congrArg OverrideChain.mk (List.eraseIdx_map _ _ _).symm

end OverrideChain

/-! ## Nodes without calls of the parent -/

namespace Node

mutual

/-- Whether a node holds a call of the parent that is not below an unclosed block. -/
def callsParent : Node → Bool
  | root children => callsParentList children
  | text _ | value _ => false
  | block _ closed children => closed && callsParentList children
  | parent _ => true

def callsParentList : List Node → Bool
  | [] => false
  | node :: rest => callsParent node || callsParentList rest

end

end Node

section everywhere

variable (registry : Registry) {chain other : OverrideChain} {layer l : Nat}

mutual

theorem evaluateNode_of_not_callsParent (active names : List String)
    (heritage : Option (Heritage chain layer)) (elsewhere : Option (Heritage other l))
    (place position : Option Nat) : ∀ node : Node, node.callsParent = false →
      evaluateNode registry chain layer active heritage place node =
        evaluateNode registry other l names elsewhere position node
  | .root children, h => by
    rw [evaluateNode, evaluateNode]
    exact evaluateNodes_of_not_callsParent _ _ _ _ _ _ children h
  | .text content, _ => by rw [evaluateNode, evaluateNode]
  | .block tag false children, _ => by rw [evaluateNode, evaluateNode]
  | .block tag true children, h => by
    -- whether the block is entered as a definition is all that the place and the names decide
    have hchildren := fun active names heritage elsewhere place position =>
      evaluateNodes_of_not_callsParent active names heritage elsewhere place position children h
    rw [evaluateNode, evaluateNode]
    congr 1
    split <;> split <;> exact hchildren _ _ _ _ _ _
  | .value tag, _ => by rw [evaluateNode, evaluateNode]
  | .parent tag, h => nomatch h

theorem evaluateNodes_of_not_callsParent (active names : List String)
    (heritage : Option (Heritage chain layer)) (elsewhere : Option (Heritage other l))
    (place position : Option Nat) : ∀ nodes : List Node, Node.callsParentList nodes = false →
      evaluateNodes registry chain layer active heritage place nodes =
        evaluateNodes registry other l names elsewhere position nodes
  | [], _ => by rw [evaluateNodes, evaluateNodes]
  | node :: rest, h => by
    obtain ⟨hnode, hrest⟩ := Bool.or_eq_false_iff.mp h
    rw [evaluateNodes, evaluateNodes, evaluateNode_of_not_callsParent _ _ _ _ _ _ node hnode,
      evaluateNodes_of_not_callsParent _ _ _ _ _ _ rest hrest]

end

end everywhere

/-! ## Evaluation in both chains -/

section both

variable {chain : OverrideChain} {i : Nat}

/-- What calls of the parent have ahead of them is the same in both chains. -/
def Alike {l : Nat} (whole : Option (Heritage chain (wholeLayer i l)))
    (short : Option (Heritage (chain.without i) l)) : Prop :=
  whole.map (·.definitions) = short.map fun h => h.definitions.map (Prod.map (wholeLayer i) id)

theorem Alike.enter {l : Nat} {whole : Option (Heritage chain (wholeLayer i l))}
    {short : Option (Heritage (chain.without i) l)} {name : String} (h : Alike whole short)
    (hname : i ≤ l ∨ chain.definition? i name = none) :
    Alike (Heritage.enter name whole) (Heritage.enter name short) := by
  have hdefs := OverrideChain.definitionsFrom_without hname
  by_cases hnil : (chain.without i).definitionsFrom (l + 1) name = []
  · have hwhole := hdefs.trans (List.map_eq_nil_iff.mpr hnil)
    rw [Heritage.enter, Heritage.enter, if_pos hnil, if_pos hwhole]
    exact h
  · have hwhole := mt (fun hwhole => List.map_eq_nil_iff.mp (hdefs.symm.trans hwhole)) hnil
    rw [Heritage.enter, Heritage.enter, if_neg hnil, if_neg hwhole]
    exact congrArg some hdefs

mutual

theorem evaluateNode_without (registry : Registry) (hapart : chain.StandsApart i) (l : Nat)
    (active : List String) (whole : Option (Heritage chain (wholeLayer i l)))
    (short : Option (Heritage (chain.without i) l)) (halike : Alike whole short)
    (place : Option Nat) (node : Node) :
    evaluateNode registry chain (wholeLayer i l) active whole place node =
      evaluateNode registry (chain.without i) l active short place node := by
  match node with
  | .root children =>
    rw [evaluateNode, evaluateNode]
    exact evaluateNodes_without registry hapart l active whole short halike place children
  | .text content => rw [evaluateNode, evaluateNode]
  | .block tag false children => rw [evaluateNode, evaluateNode]
  | .value tag => rw [evaluateNode, evaluateNode]
  | .block tag true children =>
    rw [evaluateNode, evaluateNode, OverrideChain.isDefinition_without]
    split
    · rename_i hdef
      have hname : i ≤ l ∨ chain.definition? i tag.name = none := by
        obtain ⟨own, hown, -⟩ := OverrideChain.isDefinition_iff.mp hdef.2
        rcases Nat.lt_or_ge l i with hlt | hle
        · rw [wholeLayer, if_pos hlt] at hown
          exact .inr (hapart l hlt tag.name (Option.isSome_of_eq_some hown))
        · exact .inl hle
      rw [evaluateNodes_without registry hapart l _ _ _ (halike.enter hname) _ children]
    · rw [evaluateNodes_without registry hapart l _ _ _ halike _ children]
  | .parent tag =>
    cases short with
    | none =>
      obtain rfl := Option.map_eq_none_iff.mp halike
      rw [evaluateNode_parent_none, evaluateNode_parent_none]
    | some h =>
      obtain ⟨w, rfl, hmap⟩ := Option.map_eq_some_iff.mp halike
      have hdefinitions : w.definitions = h.definitions.map (Prod.map (wholeLayer i) id) := hmap
      cases hdefs : h.definitions with
      | nil =>
        rw [hdefs] at hdefinitions
        rw [evaluateNode_parent_nil hdefs, evaluateNode_parent_nil hdefinitions]
      | cons next rest =>
        obtain ⟨k, body⟩ := next
        have hlt := h.lt_of_definitions_eq hdefs
        have hwhole : w.definitions =
            (wholeLayer i k, body) :: rest.map (Prod.map (wholeLayer i) id) := by
          rw [hdefinitions, hdefs]
          rfl
        rw [evaluateNode_parent_cons hdefs, evaluateNode_parent_cons hwhole]
        exact evaluateNodes_without registry hapart k active (some (w.behind hwhole))
          (some (h.behind hdefs)) rfl _ body.children
termination_by ((chain.without i).depth - l, sizeOf node)

theorem evaluateNodes_without (registry : Registry) (hapart : chain.StandsApart i) (l : Nat)
    (active : List String) (whole : Option (Heritage chain (wholeLayer i l)))
    (short : Option (Heritage (chain.without i) l)) (halike : Alike whole short)
    (place : Option Nat) (nodes : List Node) :
    evaluateNodes registry chain (wholeLayer i l) active whole place nodes =
      evaluateNodes registry (chain.without i) l active short place nodes := by
  match nodes with
  | [] => rw [evaluateNodes, evaluateNodes]
  | node :: rest =>
    rw [evaluateNodes, evaluateNodes,
      evaluateNode_without registry hapart l active whole short halike _ node,
      evaluateNodes_without registry hapart l active whole short halike _ rest]
termination_by ((chain.without i).depth - l, sizeOf nodes)

end

end both

theorem compile_ofRoots (registry : Registry) (roots : List Node) (place : Option Nat)
    (node : Node) : ((CompileContext.ofRoots registry roots).compile place node).1 =
        evaluateNode registry (.ofRoots roots) 0 [] none place node ∧
      ((CompileContext.ofRoots registry roots).compile place node).2.diagnostics =
        (evaluateNode registry (.ofRoots roots) 0 [] none place node).diagnostics := by
  simp only [CompileContext.compile, CompileContext.ofRoots, List.nil_append,
    compileNode_eq_evaluateNode registry (.ofRoots roots) 0 [] none place node .empty Tracks.empty,
    and_self]

/-- **Layers without influence.** If no layer that is more specific than another one holds a call of
the parent, or none has a closed block of the name of a closed block of that layer, then the first
layer compiles to the same without that layer, with the same mistakes. -/
theorem compile_eraseIdx (registry : Registry) (roots : List Node) (i : Nat) (hi : 1 ≤ i)
    (h : (∀ above ∈ roots.take i, above.callsParent = false) ∨
      ∀ root ∈ roots[i]?, ∀ block ∈ root.closedBlocks, ∀ above ∈ roots.take i,
        ∀ other ∈ above.closedBlocks, other.tag.name ≠ block.tag.name) :
    ∀ first ∈ roots.head?, first ∈ (roots.eraseIdx i).head? ∧
      ((CompileContext.ofRoots registry (roots.eraseIdx i)).compile (some 0) first).1 =
        ((CompileContext.ofRoots registry roots).compile (some 0) first).1 ∧
      ((CompileContext.ofRoots registry (roots.eraseIdx i)).compile (some 0) first).2.diagnostics =
        ((CompileContext.ofRoots registry roots).compile (some 0) first).2.diagnostics := by
  intro first hfirst
  obtain ⟨n, rfl⟩ := Nat.exists_eq_add_of_le' hi
  obtain ⟨rest, rfl⟩ := List.head?_eq_some_iff.mp hfirst
  have hsame : evaluateNode registry (.ofRoots ((first :: rest).eraseIdx (n + 1))) 0 [] none
      (some 0) first =
        evaluateNode registry (.ofRoots (first :: rest)) 0 [] none (some 0) first := by
    rcases h with hcalls | hnames
    · exact evaluateNode_of_not_callsParent _ _ _ _ _ _ _ first (hcalls first List.mem_cons_self)
    · rw [OverrideChain.ofRoots_eraseIdx]
      exact (evaluateNode_without registry (OverrideChain.standsApart_ofRoots hnames) 0 [] none none
        rfl (some 0) first).symm
  obtain ⟨hshort, hshortMistakes⟩ :=
    compile_ofRoots registry ((first :: rest).eraseIdx (n + 1)) (some 0) first
  obtain ⟨hwhole, hwholeMistakes⟩ := compile_ofRoots registry (first :: rest) (some 0) first
  exact ⟨rfl, by rw [hshort, hwhole, hsame], by rw [hshortMistakes, hwholeMistakes, hsame]⟩

def plainBlock (name : String) (children : List Node) : Node :=
  .block ⟨name, .empty, ""⟩ true children

/-- A chain in which a layer between a call of the parent and its target has other names. -/
def bystanderChain : List Node :=
  [.root [plainBlock "Content" [plainBlock "If" [.parent ⟨parentName, .empty, ""⟩]]],
    .root [plainBlock "Side" [plainBlock "Note" [.parent ⟨parentName, .empty, ""⟩]]],
    .root [plainBlock "Side" [.text "side"], plainBlock "Content" [.text "base"]]]

/-- The layer in between has no influence, although the layers around it are not independent. -/
theorem compile_eraseIdx_bystander :
    1 ≤ 1 ∧ (∀ root ∈ bystanderChain[1]?, ∀ block ∈ root.closedBlocks,
      ∀ above ∈ bystanderChain.take 1, ∀ other ∈ above.closedBlocks,
        other.tag.name ≠ block.tag.name) ∧
    ∀ first ∈ bystanderChain.head?,
      ((CompileContext.ofRoots .empty (bystanderChain.eraseIdx 1)).compile (some 0) first).1 =
        ((CompileContext.ofRoots .empty bystanderChain).compile (some 0) first).1 := by
  have hnames : ∀ root ∈ bystanderChain[1]?, ∀ block ∈ root.closedBlocks,
      ∀ above ∈ bystanderChain.take 1, ∀ other ∈ above.closedBlocks,
        other.tag.name ≠ block.tag.name := by
    decide
  exact ⟨Nat.le_refl 1, hnames, fun first hfirst =>
    (compile_eraseIdx .empty bystanderChain 1 (Nat.le_refl 1) (.inr hnames) first hfirst).2.1⟩

end LayeredTags
