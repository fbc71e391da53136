import LayeredTags.Compile.Emission
import LayeredTags.Override.Chain

/-!
# Compiling a tree

A pass walks a tree with the stack of overridden blocks. A call of the parent compiles the body of
the enclosing overridden block in the next less specific layer that has one.

* `compileNode`, `compileNodes`: what a node or a list of siblings yields, and the stack behind it.
* `CompileContext`: a chain, a registry and the state that a pass leaves behind.

Every call of the parent goes to a less specific layer, and below a layer the nodes become smaller;
this is the measure by which the recursion ends.
-/

namespace LayeredTags

/-- The place of a node among its siblings: a nested root stands in no layer. -/
def Node.placeIn (place : Option Nat) : Node → Option Nat
  | .root _ => none
  | _ => place

mutual

/-- Compiles a node that stands at `place` in the tree of the current layer, or elsewhere. -/
def compileNode (registry : Registry) (chain : OverrideChain) (layer : Nat) (place : Option Nat)
    (node : Node) (stack : OverrideStack Body) : Emission × OverrideStack Body :=
  match node with
  | .root children => compileNodes registry chain layer place children stack
  | .text content => (.ofCode content, stack)
  | .block _ false _ => (.empty, stack)
  | .block tag true children =>
    match chain.layeredBodies? layer place tag.name stack with
    | some bodies =>
      let inner := compileNodes registry chain layer (place.map (· + 1)) children
        (stack.push tag.name bodies)
      (registry.emitBlock tag inner.1, inner.2.pop tag.name)
    | none =>
      let inner := compileNodes registry chain layer (place.map (· + 1)) children stack
      (registry.emitBlock tag inner.1, inner.2)
  | .value tag => (registry.emitValue tag, stack)
  | .parent _ =>
    match stack.advance with
    | none => (.ofMistake .parentWithoutLayer (stack.current?.getD parentName), stack)
    | some step =>
      if layer < step.layer ∧ step.layer < chain.depth then
        let inner := compileNodes registry chain step.layer (some (step.body.number + 1))
          step.body.children step.stack
        (inner.1, inner.2.retreat step.name)
      else (.ofMistake .parentWithoutLayer step.name, stack)
termination_by (chain.depth - layer, sizeOf node)

/-- Compiles siblings one after the other; the first closed block among them stands at `place`. -/
def compileNodes (registry : Registry) (chain : OverrideChain) (layer : Nat) (place : Option Nat)
    (nodes : List Node) (stack : OverrideStack Body) : Emission × OverrideStack Body :=
  match nodes with
  | [] => (.empty, stack)
  | node :: rest =>
    let first := compileNode registry chain layer (node.placeIn place) node stack
    let others := compileNodes registry chain layer (place.map (· + node.blockCount)) rest
      first.2
    (first.1 ++ others.1, others.2)
termination_by (chain.depth - layer, sizeOf nodes)

end

/-- What a pass works with: the registry, the chain, the stack, the layer whose body is being
compiled, and the mistakes met so far. -/
structure CompileContext where
  registry : Registry
  chain : OverrideChain
  stack : OverrideStack Body
  currentLayer : Nat
  diagnostics : List Diagnostic

namespace CompileContext

/-- A context for a chain of trees, the most specific first; its first layer is current. -/
def ofRoots (registry : Registry) (roots : List Node) : CompileContext :=
  ⟨registry, .ofRoots roots, .empty, 0, []⟩

/-- Compiles a node in the context. The place is the number of the node's first closed block in the
tree of the current layer, if the node stands there. -/
def compile (ctx : CompileContext) (place : Option Nat) (node : Node) :
    Emission × CompileContext :=
  let result := compileNode ctx.registry ctx.chain ctx.currentLayer place node ctx.stack
  (result.1,
    { ctx with stack := result.2, diagnostics := ctx.diagnostics ++ result.1.diagnostics })

end CompileContext

end LayeredTags
