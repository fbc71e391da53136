import LayeredTags.Diagnostic
import LayeredTags.Node.Basic
import LayeredTags.Registry

/-!
# What compiling a node yields

* `Emission`: code, mistakes and the calls of callbacks, in the order in which they arise.
* `Registry.emitBlock`, `Registry.emitValue`: what a tag yields under a registry.
-/

namespace LayeredTags

/-- A call of a callback. -/
structure Call where
  kind : TagKind
  name : String
  deriving DecidableEq, Repr

/-- Code together with the mistakes and calls on the way to it. -/
structure Emission where
  code : String
  diagnostics : List Diagnostic
  calls : List Call
  deriving DecidableEq, Repr, Inhabited

namespace Emission

def empty : Emission := ⟨"", [], []⟩

def ofCode (code : String) : Emission := ⟨code, [], []⟩

def ofMistake (kind : DiagnosticKind) (tag : String) : Emission := ⟨"", [⟨kind, tag⟩], []⟩

def append (a b : Emission) : Emission :=
  ⟨a.code ++ b.code, a.diagnostics ++ b.diagnostics, a.calls ++ b.calls⟩

instance : Append Emission := ⟨append⟩

theorem code_append (a b : Emission) : (a ++ b).code = a.code ++ b.code := rfl

theorem diagnostics_append (a b : Emission) :
    (a ++ b).diagnostics = a.diagnostics ++ b.diagnostics := rfl

end Emission

namespace Registry

/-- Gives the compiled children of a block to its callback. Without one they stand as they are and
the block is reported. -/
def emitBlock (r : Registry) (tag : Tag) (inner : Emission) : Emission :=
  match r.block? tag.name with
  | some callback =>
    { inner with
      code := callback tag.name tag.attributes inner.code
      calls := inner.calls ++ [⟨.block, tag.name⟩] }
  | none =>
    { inner with diagnostics := inner.diagnostics ++ [⟨.unknownBlockTag, tag.name⟩] }

/-- Calls the callback of a value. Without one the value leaves nothing and is reported. -/
def emitValue (r : Registry) (tag : Tag) : Emission :=
  match r.value? tag.name with
  | some callback => ⟨callback tag.name tag.attributes tag.raw, [], [⟨.value, tag.name⟩]⟩
  | none => .ofMistake .unknownValueTag tag.name

theorem emitBlock_ofCode (r : Registry) (tag : Tag) (inner : Emission) :
    (r.emitBlock tag inner).code = (r.emitBlock tag (.ofCode inner.code)).code ∧
      (r.emitBlock tag inner).diagnostics =
        inner.diagnostics ++ (r.emitBlock tag (.ofCode inner.code)).diagnostics := by
  unfold emitBlock
  cases r.block? tag.name <;> simp [Emission.ofCode]

end Registry

end LayeredTags
