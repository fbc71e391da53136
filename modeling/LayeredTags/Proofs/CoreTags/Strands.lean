import LayeredTags.CoreTags
import LayeredTags.Compile.Compiler
import LayeredTags.Proofs.Compile.Environment
import LayeredTags.Proofs.Node.Walk

/-!
# What the core tags write

The code of a single source is a row of strands: the texts of the source, the literals of its
values, and the mustaches that the templates of the tags put around and between them.

* `Mark`, `Strand`: a mustache that a template writes, and a part of the code.
* `strands`: the strands of a tree.
* `code_compileSource`: compiling a source under exactly the core tags yields its strands.
* `comesFrom_strands`: where the strands of a tree come from, and what their marks are made of.
-/

namespace LayeredTags.CoreTags

/-- A mustache that the template of a core tag writes. -/
inductive Mark where
  | opener (helper path : String)
  | closer (helper : String)
  | alternative
  | value (path : String)
  deriving DecidableEq, Repr

/-- What stands between the braces of a mark. -/
def Mark.content : Mark → String
  | opener helper path => "#" ++ helper ++ " " ++ path
  | closer helper => "/" ++ helper
  | alternative => "else"
  | value path => path

/-- A part of the code of a source. -/
inductive Strand where
  /-- a text of the source as it stands -/
  | text (content : String)
  /-- the text of an attribute, whose double braces are escaped -/
  | literal (value : String)
  | mark (m : Mark)
  deriving DecidableEq, Repr

def Strand.spell : Strand → String
  | text content => content
  | literal value => escape value
  | mark m => mustache m.content

def spell : List Strand → String
  | [] => ""
  | s :: rest => s.spell ++ spell rest

@[simp] theorem spell_nil : spell [] = "" := rfl

@[simp] theorem spell_cons (s : Strand) (rest : List Strand) :
    spell (s :: rest) = s.spell ++ spell rest := rfl

@[simp] theorem spell_append (a b : List Strand) : spell (a ++ b) = spell a ++ spell b := by
  induction a with
  | nil => simp
  | cons s a ih => simp [ih, String.append_assoc]

/-! ## Strands of tags -/

/-- The helper that a block tag writes. -/
def helper? (name : String) : Option String :=
  [("If", "if"), ("Unless", "unless"), ("Each", "each"), ("With", "with")].lookup name

/-- The change that a tag makes to its literal. -/
def change? (name : String) : Option (String → String) :=
  [("Text", id), ("Upper", Text.upper), ("Lower", Text.lower)].lookup name

/-- The strands of a block around those of its children. A block without a definition leaves its
children as they are. -/
def blockStrands (tag : Tag) (children : List Strand) : List Strand :=
  match helper? tag.name with
  | some helper =>
    match contextPath? tag.attributes "var" with
    | some path => .mark (.opener helper path) :: children ++ [.mark (.closer helper)]
    | none => []
  | none => if tag.name = "Comment" then [] else children

def contextStrands (attributes : Attributes) : List Strand :=
  match contextPath? attributes "name" with
  | none => []
  | some path =>
    match attributes.get? "default" with
    | some default =>
      [.mark (.opener "if" path), .mark (.value path), .mark .alternative, .literal default,
        .mark (.closer "if")]
    | none => [.mark (.value path)]

def valueStrands (tag : Tag) : List Strand :=
  if tag.name = "Var" then contextStrands tag.attributes
  else
    match change? tag.name, tag.attributes.get? "value" with
    | some change, some value => [.literal (change value)]
    | some _, none | none, _ => []

theorem block?_registry (name : String) : registry.block? name =
    match helper? name with
    | some helper => some fun _ attributes children => helperBlock helper attributes children
    | none => if name = "Comment" then some fun _ _ _ => "" else none := by
  by_cases hif : name = "If"
  · rw [hif]
    rfl
  by_cases hunless : name = "Unless"
  · rw [hunless]
    rfl
  by_cases heach : name = "Each"
  · rw [heach]
    rfl
  by_cases hwith : name = "With"
  · rw [hwith]
    rfl
  have hhelper : helper? name = none := by
    simp [helper?, List.lookup_cons, beq_eq_false_iff_ne.mpr hif, beq_eq_false_iff_ne.mpr hunless,
      beq_eq_false_iff_ne.mpr heach, beq_eq_false_iff_ne.mpr hwith]
  simp only [Registry.block?, registry, register, Registry.registerAll, definitions, List.foldl,
    Registry.register, TagTable.get?_insert, hif, hunless, heach, hwith, hhelper, if_false]
  rfl

theorem value?_registry (name : String) : registry.value? name =
    if name = "Var" then some fun _ attributes _ => contextValue attributes
    else (change? name).map fun change _ attributes _ => literal change attributes := by
  by_cases hvar : name = "Var"
  · rw [hvar]
    rfl
  by_cases htext : name = "Text"
  · rw [htext]
    rfl
  by_cases hupper : name = "Upper"
  · rw [hupper]
    rfl
  by_cases hlower : name = "Lower"
  · rw [hlower]
    rfl
  have hchange : change? name = none := by
    simp [change?, List.lookup_cons, beq_eq_false_iff_ne.mpr htext,
      beq_eq_false_iff_ne.mpr hupper, beq_eq_false_iff_ne.mpr hlower]
  simp only [Registry.value?, registry, register, Registry.registerAll, definitions, List.foldl,
    Registry.register, TagTable.get?_insert, hvar, htext, hupper, hlower, hchange, if_false]
  rfl

theorem code_emitBlock {tag : Tag} {inner : Emission} {children : List Strand}
    (h : inner.code = spell children) :
    (registry.emitBlock tag inner).code = spell (blockStrands tag children) := by
  rw [Registry.emitBlock, block?_registry, blockStrands]
  cases hhelper : helper? tag.name with
  | some helper =>
    simp only
    rw [helperBlock]
    cases contextPath? tag.attributes "var" with
    | none => rfl
    | some path => simp [Strand.spell, Mark.content, h, String.append_assoc]
  | none =>
    simp only
    split_ifs
    · rfl
    · exact h

theorem code_emitValue (tag : Tag) :
    (registry.emitValue tag).code = spell (valueStrands tag) := by
  rw [Registry.emitValue, value?_registry, valueStrands]
  split_ifs
  · simp only
    rw [contextValue, contextStrands]
    cases contextPath? tag.attributes "name" with
    | none => rfl
    | some path =>
      cases tag.attributes.get? "default" with
      | none => simp [Strand.spell, Mark.content]
      | some default => simp [Strand.spell, Mark.content, String.append_assoc]
  · cases change? tag.name with
    | none => rfl
    | some change =>
      simp only [Option.map_some, literal]
      cases tag.attributes.get? "value" with
      | none => rfl
      | some value => simp [Strand.spell]

/-! ## Strands of trees -/

mutual

/-- The strands of a node. An unclosed block and a call of the parent leave nothing. -/
def strands : Node → List Strand
  | .root children => strandsList children
  | .text content => [.text content]
  | .block tag closed children => if closed then blockStrands tag (strandsList children) else []
  | .value tag => valueStrands tag
  | .parent _ => []

def strandsList : List Node → List Strand
  | [] => []
  | node :: rest => strands node ++ strandsList rest

end

mutual

theorem code_evaluateNode {chain : OverrideChain}
    (hchain : ∀ name, chain.definitionsFrom 1 name = []) (active : List String)
    (place : Option Nat) : ∀ node : Node,
    (evaluateNode registry chain 0 active none place node).code = spell (strands node)
  | .root children => by
    rw [evaluateNode, strands]
    exact code_evaluateNodes hchain active place children
  | .text content => by
    rw [evaluateNode, strands]
    simp [Strand.spell, Emission.ofCode]
  | .block tag false children => by
    rw [evaluateNode, strands]
    rfl
  | .block tag true children => by
    rw [evaluateNode, strands, if_pos rfl]
    apply code_emitBlock
    split_ifs
    · rw [show Heritage.enter tag.name (none : Option (Heritage chain 0)) = none from
        if_pos (hchain tag.name)]
      exact code_evaluateNodes hchain (active ++ [tag.name]) (place.map (· + 1)) children
    · exact code_evaluateNodes hchain active (place.map (· + 1)) children
  | .value tag => by
    rw [evaluateNode, strands]
    exact code_emitValue tag
  | .parent tag => by
    rw [evaluateNode_parent_none, strands]
    rfl

theorem code_evaluateNodes {chain : OverrideChain}
    (hchain : ∀ name, chain.definitionsFrom 1 name = []) (active : List String)
    (place : Option Nat) : ∀ nodes : List Node,
    (evaluateNodes registry chain 0 active none place nodes).code = spell (strandsList nodes)
  | [] => by
    rw [evaluateNodes, strandsList]
    rfl
  | node :: rest => by
    rw [evaluateNodes, strandsList, spell_append,
      ← code_evaluateNode hchain active (node.placeIn place) node,
      ← code_evaluateNodes hchain active (place.map (· + node.blockCount)) rest]
    rfl

end

theorem code_compileSource {source : String} {strict : Bool} {emission : Emission}
    (h : (Compiler.mk registry strict).compileSource source = .ok emission) :
    emission.code = spell (strands (parse source).root) := by
  have hpermissive : emission = Compiler.permissive registry [source] := by
    rw [Compiler.compileSource, Compiler.compileLayers] at h
    split at h
    · cases h
    · exact (Except.ok.inj h).symm
  have hpass := compileNode_eq_evaluateNode registry (.ofRoots [(parse source).root]) 0 [] none
    (some 0) (parse source).root .empty Tracks.empty
  have hcode : (Compiler.permissive registry [source]).code =
      (compileNode registry (.ofRoots [(parse source).root]) 0 (some 0) (parse source).root
        .empty).1.code := rfl
  rw [hpermissive, hcode, hpass]
  exact code_evaluateNode (fun name => rfl) [] (some 0) _

/-! ## Where strands come from -/

/-- The paths of the mark are plain, and no closing brace stands in its helper. -/
def Mark.IsPlain : Mark → Prop
  | opener helper path => '}' ∉ helper.toList ∧ path.toList.all isPathChar = true
  | closer helper => '}' ∉ helper.toList
  | alternative => True
  | value path => path.toList.all isPathChar = true

theorem all_isPathChar_of_contextPath? {attributes : Attributes} {key path : String}
    (h : contextPath? attributes key = some path) : path.toList.all isPathChar = true := by
  have hplain := (Option.filter_eq_some_iff.mp h).2
  rw [Bool.and_eq_true] at hplain
  exact hplain.2

theorem notMem_of_all_isPathChar {path : String} {c : Char} (h : path.toList.all isPathChar = true)
    (hc : isPathChar c = false) : c ∉ path.toList := by
  intro hmem
  rw [List.all_eq_true.mp h c hmem] at hc
  cases hc

theorem Mark.IsPlain.notMem_content {m : Mark} (h : m.IsPlain) : '}' ∉ m.content.toList := by
  have hbrace : isPathChar '}' = false := by decide
  cases m with
  | opener helper path =>
    have hpath := notMem_of_all_isPathChar h.2 hbrace
    simp [content, String.toList_append, h.1, hpath]
  | closer helper =>
    have hhelper : '}' ∉ helper.toList := h
    simp [content, String.toList_append, hhelper]
  | alternative => decide
  | value path => exact notMem_of_all_isPathChar h hbrace

theorem notMem_of_helper? {name helper : String} (h : helper? name = some helper) :
    '}' ∉ helper.toList := by
  obtain ⟨before, after, htable, -⟩ := List.lookup_eq_some_iff.mp h
  have hmem : (name, helper) ∈ [("If", "if"), ("Unless", "unless"), ("Each", "each"),
      ("With", "with")] := by
    rw [htable]
    exact List.mem_append_right _ List.mem_cons_self
  simp only [List.mem_cons, Prod.mk.injEq, List.not_mem_nil, or_false] at hmem
  rcases hmem with ⟨-, rfl⟩ | ⟨-, rfl⟩ | ⟨-, rfl⟩ | ⟨-, rfl⟩ <;> decide

/-- The strand is a text of some nodes, a literal, or a plain mark. -/
inductive Strand.ComesFrom (nodes : List Node) : Strand → Prop
  | text {content : String} (h : .text content ∈ nodes) : ComesFrom nodes (.text content)
  | literal (value : String) : ComesFrom nodes (.literal value)
  | mark {m : Mark} (h : m.IsPlain) : ComesFrom nodes (.mark m)

theorem Strand.ComesFrom.mono {nodes others : List Node} {s : Strand} (h : s.ComesFrom nodes)
    (hsub : ∀ node ∈ nodes, node ∈ others) : s.ComesFrom others := by
  cases h with
  | text hmem => exact .text (hsub _ hmem)
  | literal value => exact .literal value
  | mark hplain => exact .mark hplain

theorem comesFrom_blockStrands {nodes : List Node} {tag : Tag} {children : List Strand}
    (h : ∀ s ∈ children, s.ComesFrom nodes) :
    ∀ s ∈ blockStrands tag children, s.ComesFrom nodes := by
  intro s hs
  unfold blockStrands at hs
  split at hs
  · rename_i helper hhelper
    split at hs
    · rename_i path hpath
      rw [List.cons_append, List.mem_cons, List.mem_append, List.mem_singleton] at hs
      rcases hs with rfl | hs | rfl
      · exact .mark ⟨notMem_of_helper? hhelper, all_isPathChar_of_contextPath? hpath⟩
      · exact h s hs
      · exact .mark (notMem_of_helper? hhelper)
    · cases hs
  · split_ifs at hs
    · cases hs
    · exact h s hs

theorem comesFrom_valueStrands {nodes : List Node} {tag : Tag} :
    ∀ s ∈ valueStrands tag, s.ComesFrom nodes := by
  intro s hs
  unfold valueStrands contextStrands at hs
  split_ifs at hs
  · split at hs
    · cases hs
    · rename_i path hpath
      have hplain := all_isPathChar_of_contextPath? hpath
      split at hs
      · simp only [List.mem_cons, List.not_mem_nil, or_false] at hs
        rcases hs with rfl | rfl | rfl | rfl | rfl
        · exact .mark ⟨by decide, hplain⟩
        · exact .mark hplain
        · exact .mark trivial
        · exact .literal _
        · exact .mark (by decide : '}' ∉ "if".toList)
      · rw [List.mem_singleton.mp hs]
        exact .mark hplain
  · split at hs
    · rw [List.mem_singleton.mp hs]
      exact .literal _
    · cases hs
    · cases hs

mutual

theorem comesFrom_strands : ∀ node : Node, ∀ s ∈ strands node, s.ComesFrom node.subtrees
  | .root children => fun s hs => by
    refine (comesFrom_strandsList children s hs).mono fun node hnode => ?_
    rw [Node.subtrees]
    exact .tail _ hnode
  | .text content => fun s hs => by
    rw [List.mem_singleton.mp hs]
    exact .text List.mem_cons_self
  | .block tag true children => by
    refine comesFrom_blockStrands fun s hs => ?_
    refine (comesFrom_strandsList children s hs).mono fun node hnode => ?_
    rw [Node.subtrees]
    exact .tail _ hnode
  | .block _ false _ => fun s hs => nomatch hs
  | .value tag => comesFrom_valueStrands
  | .parent _ => fun s hs => nomatch hs

theorem comesFrom_strandsList : ∀ nodes : List Node, ∀ s ∈ strandsList nodes,
    s.ComesFrom (Node.subtreesList nodes)
  | [] => fun s hs => nomatch hs
  | node :: rest => fun s hs => by
    rw [strandsList, List.mem_append] at hs
    rw [Node.subtreesList]
    rcases hs with hs | hs
    · exact (comesFrom_strands node s hs).mono fun _ => List.mem_append_left _
    · exact (comesFrom_strandsList rest s hs).mono fun _ => List.mem_append_right _

end

end LayeredTags.CoreTags
