import LayeredTags.Compile.Compiler
import LayeredTags.CoreTags
import LayeredTags.Proofs.Compile.Moment
import Mathlib

/-!
# Which block a call of the parent belongs to

A call of the parent in the first layer belongs to the innermost block around it that is the
definition of its name and is defined by a less specific layer too. For a call that stands in an
overridden block behind wrappers this is the overridden block unless one of the wrappers takes the
call over (`parentCall_belongs_iff`).

* `Enclosure.captures`: a block takes over the calls of the parent below it.
* `Leads.owned_captor`: the owner at a moment of the first layer.
* `parentCall_belongs_iff`: what a call behind wrappers compiles to, and when that is the
  overridden block.
-/

namespace LayeredTags

/-- The core tags that stand around their children. -/
def wrapperNames : List String := ["If", "Unless", "Each", "With"]

/-- A block takes over the calls of the parent below it if it is the definition of its name in the
first layer and a less specific layer defines the name too. -/
def Enclosure.captures (chain : OverrideChain) : Enclosure → Bool
  | .block place name =>
    chain.isDefinition 0 place name && !(chain.definitionsFrom 1 name).isEmpty
  | .root | .parent _ _ => false

/-- The owner of the calls of the parent inside an enclosure in the first layer. -/
def Enclosure.ownerInside (chain : OverrideChain) (owner : Option String) (e : Enclosure) :
    Option String :=
  match e with
  | .block place name => if (Enclosure.block place name).captures chain then some name else owner
  | .root | .parent _ _ => owner

/-- The active names are those of definitions in front of a place of the first layer. -/
def DefinedBefore (chain : OverrideChain) (stack : OverrideStack Body) (place : Option Nat) :
    Prop :=
  ∀ name ∈ stack.names, ∀ n, place = some n →
    ∃ own, chain.definition? 0 name = some own ∧ own.number < n

namespace DefinedBefore

variable {chain : OverrideChain} {stack : OverrideStack Body} {place : Option Nat} {name : String}

theorem empty : DefinedBefore chain .empty place := by
  intro name hname
  cases hname

theorem add (h : DefinedBefore chain stack place) (k : Nat) :
    DefinedBefore chain stack (place.map (· + k)) := by
  intro name hname n hn
  obtain ⟨p, rfl, rfl⟩ := Option.map_eq_some_iff.mp hn
  obtain ⟨own, hown, hlt⟩ := h name hname p rfl
  exact ⟨own, hown, by omega⟩

theorem push (h : DefinedBefore chain stack place) {own : Body}
    {bodies : List (Nat × Body)} (hname : name ∉ stack.names)
    (hown : chain.definition? 0 name = some own) (hplace : place = some own.number) :
    DefinedBefore chain (stack.push name ((0, own) :: bodies)) (place.map (· + 1)) := by
  intro other hother n hn
  rw [OverrideStack.names_push hname (by simp)] at hother
  rcases List.mem_cons.mp hother with rfl | hother
  · rw [hplace] at hn
    cases hn
    exact ⟨own, hown, Nat.lt_succ_self _⟩
  · exact h.add 1 other hother n hn

theorem notMem_of_isDefinition (h : DefinedBefore chain stack place)
    (hdef : chain.isDefinition 0 place name = true) : name ∉ stack.names := by
  intro hname
  obtain ⟨own, hown, hplace⟩ := OverrideChain.isDefinition_iff.mp hdef
  obtain ⟨other, hother, hlt⟩ := h name hname own.number hplace
  rw [hown] at hother
  cases hother
  exact Nat.lt_irrefl _ hlt

end DefinedBefore

namespace Leads

variable {registry : Registry} {chain : OverrideChain} {m m' : Moment} {path : List Enclosure}

/-- At a moment of the first layer the owner is the innermost enclosure that takes calls of the
parent over. -/
theorem owned_captor (h : Leads registry chain m path m') (hm : m.layer = 0) (hm' : m'.layer = 0)
    {owner : Option String} (ho : Owned chain 0 m.stack owner)
    (hbefore : DefinedBefore chain m.stack m.place) :
    Owned chain 0 m'.stack (path.foldl (Enclosure.ownerInside chain) owner) := by
  induction h generalizing owner with
  | here => exact ho
  | pass _ ih =>
    cases hm
    rw [ho.compileNode_stack] at ih
    exact ih rfl hm' ho (hbefore.add _)
  | @enter layer place tag _ _ _ _ _ _ hbodies _ ih =>
    cases hm
    obtain ⟨hactive, own, hown, hplace, rfl⟩ := OverrideChain.layeredBodies?_eq_some_iff.mp hbodies
    have hname := OverrideStack.isActive_eq_false_iff.mp hactive
    have hdef := OverrideChain.isDefinition_iff.mpr ⟨own, hown, hplace⟩
    have hinside : Enclosure.ownerInside chain owner (.block place tag.name) =
        if chain.definitionsFrom 1 tag.name = [] then owner else some tag.name := by
      by_cases hnil : chain.definitionsFrom 1 tag.name = [] <;>
        simp [Enclosure.ownerInside, Enclosure.captures, hdef, hnil]
    rw [List.foldl_cons, hinside]
    exact ih rfl hm' (ho.push hname _) (hbefore.push hname hown hplace)
  | @through layer place tag _ _ _ _ _ hbodies _ ih =>
    cases hm
    have hdef : chain.isDefinition 0 place tag.name = false := by
      by_contra hdef
      have hdef := Bool.eq_true_of_not_eq_false hdef
      obtain ⟨own, hown, hplace⟩ := OverrideChain.isDefinition_iff.mp hdef
      have hactive := OverrideStack.isActive_eq_false_iff.mpr (hbefore.notMem_of_isDefinition hdef)
      rw [OverrideChain.layeredBodies?_eq_some_iff.mpr ⟨hactive, own, hown, hplace, rfl⟩] at hbodies
      cases hbodies
    have hinside : Enclosure.ownerInside chain owner (.block place tag.name) = owner := by
      simp [Enclosure.ownerInside, Enclosure.captures, hdef]
    rw [List.foldl_cons, hinside]
    exact ih rfl hm' ho (hbefore.add 1)
  | root _ ih =>
    cases hm
    exact ih rfl hm' ho fun _ _ _ hn => by cases hn
  | parent _ hlt _ hleads _ =>
    have hle := hleads.layer_le
    simp only at hle
    omega

end Leads

section wrappers

variable {chain : OverrideChain} {x : String} {wrappers : List Enclosure}

/-- Behind wrappers the owner has definitions in less specific layers, and it is the block outside
of them unless one of them takes the calls over. -/
theorem exists_owner_wrappers (hoverridden : chain.definitionsFrom 1 x ≠ [])
    (hx : x ∉ wrapperNames)
    (hwrappers : ∀ e ∈ wrappers, ∃ p, ∃ name ∈ wrapperNames, e = .block p name) :
    ∃ name, wrappers.foldl (Enclosure.ownerInside chain) (some x) = some name ∧
      chain.definitionsFrom 1 name ≠ [] ∧
      (name = x ↔ ∀ e ∈ wrappers, e.captures chain = false) := by
  induction wrappers using List.reverseRecOn with
  | nil => exact ⟨x, rfl, hoverridden, by simp⟩
  | append_singleton wrappers e ih =>
    obtain ⟨name, howner, hdefs, hiff⟩ :=
      ih fun e he => hwrappers e (List.mem_append_left _ he)
    obtain ⟨p, wrapper, hwrapper, rfl⟩ := hwrappers e (by simp)
    rw [List.foldl_append, howner]
    by_cases hcaptures : (Enclosure.block p wrapper).captures chain = true
    · -- the innermost wrapper takes the calls over, and it is not named like the block outside
      have hne : wrapper ≠ x := fun heq => hx (heq ▸ hwrapper)
      refine ⟨wrapper, by simp [Enclosure.ownerInside, hcaptures], ?_, ?_⟩
      · simp only [Enclosure.captures, Bool.and_eq_true, Bool.not_eq_true',
          List.isEmpty_eq_false_iff] at hcaptures
        exact hcaptures.2
      · constructor
        · intro heq
          exact absurd heq hne
        · intro hall
          rw [hall _ (by simp)] at hcaptures
          cases hcaptures
    · have hcaptures := Bool.eq_false_of_not_eq_true hcaptures
      refine ⟨name, by simp [Enclosure.ownerInside, hcaptures], hdefs, ?_⟩
      rw [hiff]
      constructor
      · intro hall e he
        rcases List.mem_append.mp he with he | he
        · exact hall e he
        · rw [List.mem_singleton.mp he]
          exact hcaptures
      · exact fun hall e he => hall e (List.mem_append_left _ he)

end wrappers

/-- **A call of the parent behind wrappers.** It stands in the first layer's definition of a block
that a less specific layer defines too, inside wrappers and no other blocks. It compiles to the
body of its owner in the next layer that defines the owner. The owner is the overridden block if
and only if no wrapper is itself the definition of its name in the first layer and defined by a
less specific layer. -/
theorem parentCall_belongs_iff (registry : Registry) (root : Node) (others : List Node)
    {x : String} {own : Body} {outer wrappers : List Enclosure} {place : Option Nat} {tag : Tag}
    {rest : List Node} {stack : OverrideStack Body}
    (hdefinition : (OverrideChain.ofRoots (root :: others)).definition? 0 x = some own)
    (hoverridden : (OverrideChain.ofRoots (root :: others)).definitionsFrom 1 x ≠ [])
    (hx : x ∉ wrapperNames)
    (hwrappers : ∀ e ∈ wrappers, ∃ p, ∃ name ∈ wrapperNames, e = .block p name)
    (hcall : Leads registry (.ofRoots (root :: others)) (.ofRoot root)
      (outer ++ .block (some own.number) x :: wrappers)
      ⟨0, place, .parent tag :: rest, stack⟩) :
    ∃ step, stack.advance = some step ∧
      ((OverrideChain.ofRoots (root :: others)).definitionsFrom 1 step.name).head? =
        some (step.layer, step.body) ∧
      (compileNode registry (.ofRoots (root :: others)) 0 place (.parent tag) stack).1 =
        (compileNodes registry (.ofRoots (root :: others)) step.layer
          (some (step.body.number + 1)) step.body.children step.stack).1 ∧
      (step.name = x ↔
        ∀ e ∈ wrappers, e.captures (.ofRoots (root :: others)) = false) := by
  generalize OverrideChain.ofRoots (root :: others) = chain at *
  have hstart : (Moment.ofRoot root).layer = 0 ∧ (Moment.ofRoot root).stack = .empty := by
    cases root <;> exact ⟨rfl, rfl⟩
  have howned : Owned chain 0 (Moment.ofRoot root).stack none := hstart.2 ▸ Owned.empty
  have hcaptor := hcall.owned_captor hstart.1 rfl howned (hstart.2 ▸ DefinedBefore.empty)
  have hinside : ∀ owner,
      Enclosure.ownerInside chain owner (.block (some own.number) x) = some x := by
    intro owner
    have hdef : chain.isDefinition 0 (some own.number) x = true :=
      OverrideChain.isDefinition_iff.mpr ⟨own, hdefinition, rfl⟩
    simp [Enclosure.ownerInside, Enclosure.captures, hdef, hoverridden]
  rw [List.foldl_append, List.foldl_cons, hinside] at hcaptor
  obtain ⟨name, howner, hdefs, hiff⟩ := exists_owner_wrappers hoverridden hx hwrappers
  rw [howner] at hcaptor
  obtain ⟨⟨l, body⟩, further, hcons⟩ := List.exists_cons_of_ne_nil hdefs
  obtain ⟨t, hadvance, -⟩ := hcaptor.advance_eq_some hcons
  have hmem := OverrideChain.mem_definitionsFrom.mp (hcons ▸ List.mem_cons_self)
  have hlt : 0 < l ∧ l < chain.depth := ⟨hmem.1, OverrideChain.lt_depth_of_definition? hmem.2⟩
  refine ⟨⟨name, l, body, t⟩, hadvance, by rw [hcons]; rfl, ?_, hiff⟩
  rw [compileNode, hadvance]
  simp only
  rw [if_pos hlt]

def callBehindCondition : Node :=
  .root [.block ⟨"Content", .empty, ""⟩ true
    [.block ⟨"If", .empty, ""⟩ true [.parent ⟨parentName, .empty, ""⟩]]]

def contentAndCondition : Node :=
  .root [.block ⟨"Content", .empty, ""⟩ true [.text "base"],
    .block ⟨"If", .empty, ""⟩ true [.text "other"]]

theorem parentCall_behind_condition :
    ∃ stack step, Leads CoreTags.registry (.ofRoots [callBehindCondition, contentAndCondition])
        (.ofRoot callBehindCondition) ([] ++ .block (some 0) "Content" :: [.block (some 1) "If"])
        ⟨0, some 2, [.parent ⟨parentName, .empty, ""⟩], stack⟩ ∧
      stack.advance = some step ∧ step.name ≠ "Content" := by
  have hcall : Leads CoreTags.registry (.ofRoots [callBehindCondition, contentAndCondition])
      (.ofRoot callBehindCondition) ([] ++ .block (some 0) "Content" :: [.block (some 1) "If"])
      ⟨0, some 2, [.parent ⟨parentName, .empty, ""⟩], _⟩ := .enter rfl (.enter rfl (.here _))
  have hwrappers : ∀ e ∈ [Enclosure.block (some 1) "If"],
      ∃ p, ∃ name ∈ wrapperNames, e = .block p name := by
    simp [wrapperNames]
  obtain ⟨step, hadvance, -, -, hiff⟩ := parentCall_belongs_iff (x := "Content")
    CoreTags.registry callBehindCondition [contentAndCondition] rfl (by decide) (by decide)
    hwrappers hcall
  refine ⟨_, step, hcall, hadvance, fun hname => ?_⟩
  have hcaptures := hiff.mp hname _ List.mem_cons_self
  revert hcaptures
  decide

/-- What a condition of the less specific layer changes: the call of the parent in the block
compiles to the body of that condition. -/
theorem parentCall_compiles_condition :
    (Compiler.permissive CoreTags.registry
        ["<tag:Content><tag:If var=\"a\">\x7b\x7btag:Parent\x7d\x7d</tag:If></tag:Content>",
          "<tag:Content>base</tag:Content>"]).code =
        "\x7b\x7b#if a\x7d\x7dbase\x7b\x7b/if\x7d\x7d" ∧
      (Compiler.permissive CoreTags.registry
        ["<tag:Content><tag:If var=\"a\">\x7b\x7btag:Parent\x7d\x7d</tag:If></tag:Content>",
          "<tag:Content>base</tag:Content><tag:If var=\"b\">other</tag:If>"]).code =
        "\x7b\x7b#if a\x7d\x7dother\x7b\x7b/if\x7d\x7d" := by
  constructor <;> cbv

end LayeredTags
