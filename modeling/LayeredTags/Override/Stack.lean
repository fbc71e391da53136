/-!
# The stack of overridden blocks

While a block is compiled that a layer defines, the stack holds the bodies that the layers give to
its name, the most specific first, and how far calls of the parent have gone down that list. A
name is on the stack at most once.

* `OverrideStack.push`, `OverrideStack.pop`: entering and leaving a block.
* `OverrideStack.advance`, `OverrideStack.retreat`: entering and leaving a less specific body.
-/

namespace LayeredTags

/-- A block that is being compiled: its bodies with their layers, and the index of the body that
has been reached. -/
structure Frame (β : Type) where
  name : String
  bodies : List (Nat × β)
  cursor : Nat
  deriving DecidableEq, Repr

namespace Frame

variable {β : Type}

def isLayered (f : Frame β) : Bool :=
  1 < f.bodies.length

/-- The body behind the one that has been reached. -/
def next? (f : Frame β) : Option (Nat × β) :=
  f.bodies[f.cursor + 1]?

end Frame

/-- The blocks that are being compiled, the innermost first. -/
structure OverrideStack (β : Type) where
  frames : List (Frame β)
  deriving DecidableEq, Repr

/-- A step to a less specific body: the name of the block, the layer of the body, the body and the
stack behind the step. -/
structure Advance (β : Type) where
  name : String
  layer : Nat
  body : β
  stack : OverrideStack β

namespace OverrideStack

variable {β : Type}

def empty : OverrideStack β := ⟨[]⟩

instance : Inhabited (OverrideStack β) := ⟨empty⟩

def frame? (s : OverrideStack β) (name : String) : Option (Frame β) :=
  s.frames.find? (·.name = name)

def isActive (s : OverrideStack β) (name : String) : Bool :=
  (s.frame? name).isSome

def depth (s : OverrideStack β) : Nat :=
  s.frames.length

def current? (s : OverrideStack β) : Option String :=
  s.frames.head?.map (·.name)

/-- The number of bodies of a name; none if it is not active. -/
def layerCount (s : OverrideStack β) (name : String) : Nat :=
  ((s.frame? name).map (·.bodies.length)).getD 0

/-- Whether a block of that name with those bodies may be entered: a name that is active may not,
and there must be a body. -/
def mayPush (s : OverrideStack β) (name : String) (bodies : List (Nat × β)) : Bool :=
  !s.isActive name && !bodies.isEmpty

/-- Enters a block, at its most specific body; nothing changes if it may not be entered. -/
def push (s : OverrideStack β) (name : String) (bodies : List (Nat × β)) : OverrideStack β :=
  if s.mayPush name bodies then ⟨⟨name, bodies, 0⟩ :: s.frames⟩ else s

/-- Leaves the block of that name. -/
def pop (s : OverrideStack β) (name : String) : OverrideStack β :=
  ⟨s.frames.eraseP (·.name = name)⟩

/-- Steps to the next body of the innermost frame that is layered. Frames with a single body are
passed over; a layered frame without a next body ends the search. -/
def advanceFrames : List (Frame β) → Option (Advance β)
  | [] => none
  | f :: rest =>
    if f.isLayered then
      f.next?.map fun (layer, body) =>
        ⟨f.name, layer, body, ⟨{ f with cursor := f.cursor + 1 } :: rest⟩⟩
    else
      (advanceFrames rest).map fun a => { a with stack := ⟨f :: a.stack.frames⟩ }

/-- Steps to the next less specific body of the innermost layered block. -/
def advance (s : OverrideStack β) : Option (Advance β) :=
  advanceFrames s.frames

/-- Goes one body back in the frame of that name. -/
def retreat (s : OverrideStack β) (name : String) : OverrideStack β :=
  ⟨s.frames.map fun f => if f.name = name then { f with cursor := f.cursor - 1 } else f⟩

end OverrideStack

end LayeredTags
