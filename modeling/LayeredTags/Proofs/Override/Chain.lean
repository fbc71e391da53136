import LayeredTags.Override.Chain
import Mathlib.Data.List.Sort

/-!
# Definitions along an override chain

* `OverrideChain.exists_block_of_definition?`: the block that a definition is.
* `OverrideChain.mem_definitionsFrom`: the definitions of a name from a layer on are those of the
  layers from there.
* `OverrideChain.pairwise_definitionsFrom`: they come in the order of their layers.
* `OverrideChain.layeredBodies?_eq_some_iff`: what a block is entered with.
-/

namespace LayeredTags.OverrideChain

variable {chain : OverrideChain} {layer l number : Nat} {name : String} {body : Body}
  {place : Option Nat}

/-- Whether the block at a place is the definition of the name in a layer. -/
def isDefinition (chain : OverrideChain) (layer : Nat) (place : Option Nat) (name : String) :
    Bool :=
  (chain.definition? layer name).any fun own => place = some own.number

theorem isDefinition_iff :
    chain.isDefinition layer place name = true ↔
      ∃ own, chain.definition? layer name = some own ∧ place = some own.number := by
  simp [isDefinition, Option.any_eq_true]

theorem isDefinition_iff_forall_take {blocks : List Block} {block : Block}
    (hblocks : chain.layers[layer]? = some blocks) (hblock : blocks[number]? = some block) :
    chain.isDefinition layer (some number) block.tag.name = true ↔
      ∀ other ∈ blocks.take number, other.tag.name ≠ block.tag.name := by
  obtain ⟨hlt, rfl⟩ := List.getElem?_eq_some_iff.mp hblock
  rw [isDefinition_iff, definition?, hblocks, Option.bind_some]
  constructor
  · rintro ⟨own, hown, hnumber⟩
    obtain ⟨first, hfirst, hbody⟩ := Option.bind_eq_some_iff.mp hown
    obtain ⟨_, -, rfl⟩ := Option.map_eq_some_iff.mp hbody
    obtain rfl := Option.some.inj hnumber
    obtain ⟨_, _, hfront⟩ := List.findIdx?_eq_some_iff_getElem.mp hfirst
    intro other hother
    obtain ⟨j, hj, rfl⟩ := List.mem_take_iff_getElem.mp hother
    simpa using hfront j (by omega)
  · intro hfront
    have hfirst : blocks.findIdx? (·.tag.name = blocks[number].tag.name) = some number := by
      refine List.findIdx?_eq_some_iff_getElem.mpr ⟨hlt, by simp, fun j hj => ?_⟩
      have hother : blocks[j] ∈ blocks.take number :=
        List.mem_take_iff_getElem.mpr ⟨j, by omega, rfl⟩
      simpa using hfront _ hother
    refine ⟨⟨number, blocks[number].children⟩, ?_, rfl⟩
    rw [firstNamed?, hfirst, Option.bind_some, hblock, Option.map_some]

theorem lt_depth_of_definition? (h : chain.definition? layer name = some body) :
    layer < chain.depth := by
  obtain ⟨blocks, hblocks, -⟩ := Option.bind_eq_some_iff.mp h
  exact (List.getElem?_eq_some_iff.mp hblocks).1

theorem exists_block_of_definition? (h : chain.definition? layer name = some body) :
    ∃ blocks block, chain.layers[layer]? = some blocks ∧ blocks[body.number]? = some block ∧
      block.tag.name = name ∧ block.children = body.children := by
  obtain ⟨blocks, hblocks, hfirst⟩ := Option.bind_eq_some_iff.mp h
  obtain ⟨number, hnumber, hbody⟩ := Option.bind_eq_some_iff.mp hfirst
  obtain ⟨block, hblock, rfl⟩ := Option.map_eq_some_iff.mp hbody
  obtain ⟨_, hname, -⟩ := List.findIdx?_eq_some_iff_getElem.mp hnumber
  obtain ⟨_, rfl⟩ := List.getElem?_eq_some_iff.mp hblock
  exact ⟨blocks, _, hblocks, hblock, by simpa using hname, rfl⟩

theorem mem_definitionsFrom :
    (l, body) ∈ chain.definitionsFrom layer name ↔
      layer ≤ l ∧ chain.definition? l name = some body := by
  rw [definitionsFrom, List.mem_filterMap]
  constructor
  · rintro ⟨m, hm, hmap⟩
    obtain ⟨b, hb, hpair⟩ := Option.map_eq_some_iff.mp hmap
    obtain ⟨rfl, rfl⟩ := Prod.mk.inj hpair
    exact ⟨(List.mem_range'_1.mp hm).1, hb⟩
  · rintro ⟨hle, hbody⟩
    have hdepth := lt_depth_of_definition? hbody
    refine ⟨l, List.mem_range'_1.mpr ⟨hle, by omega⟩, ?_⟩
    rw [hbody, Option.map_some]

theorem pairwise_definitionsFrom :
    (chain.definitionsFrom layer name).Pairwise fun a b => a.1 < b.1 := by
  rw [definitionsFrom, List.pairwise_filterMap]
  refine (List.pairwise_lt_range' (s := layer)).imp fun {m n} hlt => ?_
  intro a ha b hb
  obtain ⟨_, -, rfl⟩ := Option.map_eq_some_iff.mp ha
  obtain ⟨_, -, rfl⟩ := Option.map_eq_some_iff.mp hb
  exact hlt

theorem eq_of_mem_iff_of_pairwise {first second : List (Nat × Body)}
    (hfirst : first.Pairwise fun a b => a.1 < b.1) (hsecond : second.Pairwise fun a b => a.1 < b.1)
    (h : ∀ d, d ∈ first ↔ d ∈ second) : first = second := by
  have hirrefl : Std.Irrefl fun a b : Nat × Body => a.1 < b.1 := ⟨fun a => Nat.lt_irrefl a.1⟩
  have hantisymm : Std.Antisymm fun a b : Nat × Body => a.1 < b.1 :=
    ⟨fun _ _ hab hba => absurd (Nat.lt_trans hab hba) (Nat.lt_irrefl _)⟩
  exact hfirst.eq_of_mem_iff hsecond h

theorem definitionsFrom_of_eq_cons {rest : List (Nat × Body)}
    (h : chain.definitionsFrom layer name = (l, body) :: rest) :
    rest = chain.definitionsFrom (l + 1) name := by
  have hpairwise : ((l, body) :: rest).Pairwise fun a b => a.1 < b.1 :=
    h ▸ pairwise_definitionsFrom
  rw [List.pairwise_cons] at hpairwise
  have hfirst : (l, body) ∈ chain.definitionsFrom layer name := h ▸ List.mem_cons_self
  refine eq_of_mem_iff_of_pairwise hpairwise.2 pairwise_definitionsFrom fun ⟨k, other⟩ => ?_
  rw [mem_definitionsFrom]
  constructor
  · intro hmem
    have hall : (k, other) ∈ chain.definitionsFrom layer name := h ▸ List.mem_cons_of_mem _ hmem
    exact ⟨hpairwise.1 _ hmem, (mem_definitionsFrom.mp hall).2⟩
  · rintro ⟨hle, hother⟩
    have hall : (k, other) ∈ chain.definitionsFrom layer name :=
      mem_definitionsFrom.mpr ⟨by have := (mem_definitionsFrom.mp hfirst).1; omega, hother⟩
    rw [h] at hall
    rcases List.mem_cons.mp hall with heq | hmem
    · obtain rfl := congrArg Prod.fst heq
      omega
    · exact hmem

/-- What a block is entered with: the definition of an inactive name with the less specific
definitions behind it, and nothing otherwise. -/
theorem layeredBodies?_eq_some_iff {stack : OverrideStack Body} {bodies : List (Nat × Body)} :
    chain.layeredBodies? layer place name stack = some bodies ↔
      stack.isActive name = false ∧ ∃ own, chain.definition? layer name = some own ∧
        place = some own.number ∧
        bodies = (layer, own) :: chain.definitionsFrom (layer + 1) name := by
  rw [layeredBodies?]
  cases hactive : stack.isActive name
  · simp only [Bool.false_eq_true, if_false, true_and, Option.bind_eq_some_iff]
    constructor
    · rintro ⟨own, hown, hif⟩
      split at hif
      · exact ⟨own, hown, ‹_›, (Option.some.inj hif).symm⟩
      · cases hif
    · rintro ⟨own, hown, hplace, rfl⟩
      exact ⟨own, hown, if_pos hplace⟩
  · simp

theorem layeredBodies?_eq_none {stack : OverrideStack Body}
    (h : stack.isActive name = true ∨ chain.isDefinition layer place name = false) :
    chain.layeredBodies? layer place name stack = none := by
  rw [Option.eq_none_iff_forall_ne_some]
  intro bodies hbodies
  obtain ⟨hactive, own, hown, hplace, -⟩ := layeredBodies?_eq_some_iff.mp hbodies
  rcases h with h | h
  · rw [hactive] at h
    cases h
  · rw [isDefinition_iff.mpr ⟨own, hown, hplace⟩] at h
    cases h

end LayeredTags.OverrideChain
