import LayeredTags.Proofs.Compile.Environment

/-!
# The moments of a pass

A pass comes from one list of siblings to another one inside it. Which ones it comes to, and with
which stack, is a relation between moments; it follows the recursion of the pass step by step.

* `Moment`: siblings that are left to compile, where they stand and the stack.
* `Enclosure`: what lies around a moment.
* `Leads`: a pass at one moment comes to another one inside some enclosures.
* `Leads.layer_le`: a pass never comes back to a more specific layer.
-/

namespace LayeredTags

/-- Siblings that are left to compile in a layer, the place of the first closed block among them,
and the stack. -/
structure Moment where
  layer : Nat
  place : Option Nat
  nodes : List Node
  stack : OverrideStack Body

/-- The start of a pass over the tree of the first layer. -/
def Moment.ofRoot (root : Node) : Moment :=
  match root with
  | .root children => ⟨0, some 0, children, .empty⟩
  | node => ⟨0, some 0, [node], .empty⟩

/-- What a pass has entered: a closed block, a nested root, or a less specific body by a call of
the parent. -/
inductive Enclosure where
  | block (place : Option Nat) (name : String)
  | root
  | parent (name : String) (layer : Nat)
  deriving DecidableEq, Repr

/-- A pass that is at the first moment comes to the second one, inside the enclosures, the
outermost first. -/
inductive Leads (registry : Registry) (chain : OverrideChain) :
    Moment → List Enclosure → Moment → Prop where
  | here (m : Moment) : Leads registry chain m [] m
  | pass {layer : Nat} {place : Option Nat} {node : Node} {rest : List Node}
      {stack : OverrideStack Body} {path : List Enclosure} {m : Moment} :
      Leads registry chain
        ⟨layer, place.map (· + node.blockCount), rest,
          (compileNode registry chain layer (node.placeIn place) node stack).2⟩ path m →
      Leads registry chain ⟨layer, place, node :: rest, stack⟩ path m
  | enter {layer : Nat} {place : Option Nat} {tag : Tag} {children rest : List Node}
      {stack : OverrideStack Body} {bodies : List (Nat × Body)} {path : List Enclosure}
      {m : Moment} :
      chain.layeredBodies? layer place tag.name stack = some bodies →
      Leads registry chain
        ⟨layer, place.map (· + 1), children, stack.push tag.name bodies⟩ path m →
      Leads registry chain ⟨layer, place, .block tag true children :: rest, stack⟩
        (.block place tag.name :: path) m
  | through {layer : Nat} {place : Option Nat} {tag : Tag} {children rest : List Node}
      {stack : OverrideStack Body} {path : List Enclosure} {m : Moment} :
      chain.layeredBodies? layer place tag.name stack = none →
      Leads registry chain ⟨layer, place.map (· + 1), children, stack⟩ path m →
      Leads registry chain ⟨layer, place, .block tag true children :: rest, stack⟩
        (.block place tag.name :: path) m
  | root {layer : Nat} {place : Option Nat} {children rest : List Node}
      {stack : OverrideStack Body} {path : List Enclosure} {m : Moment} :
      Leads registry chain ⟨layer, none, children, stack⟩ path m →
      Leads registry chain ⟨layer, place, .root children :: rest, stack⟩ (.root :: path) m
  | parent {layer : Nat} {place : Option Nat} {tag : Tag} {rest : List Node}
      {stack : OverrideStack Body} {step : Advance Body} {path : List Enclosure} {m : Moment} :
      stack.advance = some step → layer < step.layer → step.layer < chain.depth →
      Leads registry chain
        ⟨step.layer, some (step.body.number + 1), step.body.children, step.stack⟩ path m →
      Leads registry chain ⟨layer, place, .parent tag :: rest, stack⟩
        (.parent step.name step.layer :: path) m

namespace Leads

variable {registry : Registry} {chain : OverrideChain} {m m' : Moment} {path : List Enclosure}

theorem layer_le (h : Leads registry chain m path m') : m.layer ≤ m'.layer := by
  induction h with
  | here => exact Nat.le_refl _
  | pass _ ih => exact ih
  | enter _ _ ih => exact ih
  | through _ _ ih => exact ih
  | root _ ih => exact ih
  | parent _ hlt _ _ ih => exact Nat.le_trans (Nat.le_of_lt hlt) ih

end Leads

end LayeredTags
