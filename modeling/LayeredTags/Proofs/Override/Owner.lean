import LayeredTags.Proofs.Override.Chain
import LayeredTags.Proofs.Override.Stack

/-!
# Whose bodies calls of the parent compile

At every moment of a pass the calls of the parent belong to one block, the owner, and what is left
for them are its definitions behind the current layer. So the stack holds nothing about them but
the owner's name.

* `Owned`: the owner of the calls of the parent, if there is one.
* `Owned.push`, `Owned.of_layeredBodies?`: the owner inside a block.
* `Owned.of_advance`, `Owned.definition?_of_advance`: the owner inside a less specific body, and
  which body that is.
-/

namespace LayeredTags

/-- The names on the stack are distinct, and what calls of the parent have ahead of them in a layer
are the definitions of the owner behind it. -/
structure Owned (chain : OverrideChain) (layer : Nat) (stack : OverrideStack Body)
    (owner : Option String) : Prop where
  distinct : stack.names.Nodup
  inherited : stack.inherited? =
    owner.map fun name => (name, chain.definitionsFrom (layer + 1) name)

namespace Owned

variable {chain : OverrideChain} {layer : Nat} {stack : OverrideStack Body} {owner : Option String}
  {name : String}

theorem empty : Owned chain layer .empty none :=
  ⟨List.nodup_nil, rfl⟩

/-- Inside a definition that less specific layers override the owner is that block; other blocks
leave the owner as it is. -/
theorem push (ho : Owned chain layer stack owner) (hname : name ∉ stack.names) (own : Nat × Body) :
    Owned chain layer (stack.push name (own :: chain.definitionsFrom (layer + 1) name))
      (if chain.definitionsFrom (layer + 1) name = [] then owner else some name) where
  distinct := by
    rw [OverrideStack.names_push hname (by simp)]
    exact List.nodup_cons.mpr ⟨hname, ho.distinct⟩
  inherited := by
    by_cases hdefs : chain.definitionsFrom (layer + 1) name = []
    · rw [if_pos hdefs, hdefs, OverrideStack.inherited?_push_singleton hname, ho.inherited]
    · rw [if_neg hdefs, OverrideStack.inherited?_push_cons hname hdefs, Option.map_some]

theorem of_layeredBodies? {place : Option Nat} {bodies : List (Nat × Body)}
    (ho : Owned chain layer stack owner)
    (h : chain.layeredBodies? layer place name stack = some bodies) :
    Owned chain layer (stack.push name bodies)
        (if chain.definitionsFrom (layer + 1) name = [] then owner else some name) ∧
      (stack.push name bodies).pop name = stack := by
  obtain ⟨hactive, own, -, -, rfl⟩ := OverrideChain.layeredBodies?_eq_some_iff.mp h
  have hname := OverrideStack.isActive_eq_false_iff.mp hactive
  exact ⟨ho.push hname (layer, own), OverrideStack.pop_push hname (List.cons_ne_nil _ _)⟩

theorem advance_eq_some {layer : Nat} {l : Nat} {body : Body} {rest : List (Nat × Body)}
    (ho : Owned chain layer stack (some name))
    (hdefs : chain.definitionsFrom (layer + 1) name = (l, body) :: rest) :
    ∃ t, stack.advance = some ⟨name, l, body, t⟩ ∧ Owned chain l t (some name) := by
  have hinherited := ho.inherited
  rw [Option.map_some, hdefs] at hinherited
  obtain ⟨t, hadvance, hnames, hrest⟩ := OverrideStack.advance_of_inherited hinherited
  refine ⟨t, hadvance, ⟨hnames ▸ ho.distinct, ?_⟩⟩
  rw [hrest, Option.map_some, OverrideChain.definitionsFrom_of_eq_cons hdefs]

theorem of_advance {step : Advance Body} (ho : Owned chain layer stack owner)
    (h : stack.advance = some step) :
    owner = some step.name ∧
      (chain.definitionsFrom (layer + 1) step.name).head? = some (step.layer, step.body) ∧
      Owned chain step.layer step.stack owner := by
  have hinherited := ho.inherited
  cases owner with
  | none =>
    rw [OverrideStack.advance_of_inherited_none hinherited] at h
    cases h
  | some name =>
    cases hdefs : chain.definitionsFrom (layer + 1) name with
    | nil =>
      rw [Option.map_some, hdefs] at hinherited
      rw [OverrideStack.advance_of_inherited_nil hinherited] at h
      cases h
    | cons next rest =>
      obtain ⟨l, body⟩ := next
      obtain ⟨t, hadvance, howned⟩ := ho.advance_eq_some hdefs
      obtain rfl := Option.some.inj (hadvance.symm.trans h)
      exact ⟨rfl, by rw [hdefs]; rfl, howned⟩

theorem definition?_of_advance {step : Advance Body} (ho : Owned chain layer stack owner)
    (h : stack.advance = some step) :
    layer < step.layer ∧ step.layer < chain.depth ∧
      chain.definition? step.layer step.name = some step.body := by
  obtain ⟨-, hhead, -⟩ := ho.of_advance h
  obtain ⟨hlayer, hbody⟩ := OverrideChain.mem_definitionsFrom.mp (List.mem_of_head? hhead)
  exact ⟨hlayer, OverrideChain.lt_depth_of_definition? hbody, hbody⟩

end Owned

end LayeredTags
