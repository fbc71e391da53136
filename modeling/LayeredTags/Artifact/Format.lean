import LayeredTags.Artifact.Basic
import LayeredTags.Json.Decode

/-!
# The file format of artifacts

An artifact is one JSON object. Every object of the format may also be read from an array of its
fields in order.

* `Artifact.encode?`, `Artifact.write`: the object and its text; times before 1970 have none.
* `Artifact.decode`, `Artifact.read`: the artifact of a draft and of a file.
-/

namespace LayeredTags

open Json (Fault Draft nameOf)
open Json.Decode

/-! ## Times -/

namespace Instant

/-- The bound of the seconds that a clock can represent, which has a sign. -/
def secondsBound : Nat := UInt64.size / 2

/-- The object of a time that is not before 1970. -/
def encode? (t : Instant) : Option Json :=
  if t.sinceEpoch < 0 then none
  else
    some (.object
      [("secs_since_epoch", .number (.natural t.seconds.toNat)),
        ("nanos_since_epoch", .number (.natural t.nanosecond))])

/-- The time of seconds and nanoseconds, which may exceed a second. -/
def ofClock (seconds nanos : Nat) : Except Fault Instant :=
  if seconds + nanos / perSecond < secondsBound then .ok (.ofParts seconds nanos)
  else .error .mismatched

/-- The bound of the seconds that can be written. -/
def wordBound : Nat := UInt64.size

def decodeSeconds : Draft → Except Fault Nat :=
  natural wordBound

def decodeNanos : Draft → Except Fault Nat :=
  natural UInt32.size

/-- Reads a field of a stored time; no other fields are known. -/
def decodeField (t : Option Nat × Option Nat) (name : String) (value : Draft) :
    Except Fault (Option Nat × Option Nat) :=
  if name = "secs_since_epoch" then fill t.1 decodeSeconds value fun n => (some n, t.2)
  else if name = "nanos_since_epoch" then fill t.2 decodeNanos value fun n => (t.1, some n)
  else .error .mismatched

/-- The time of a draft. In an array, seconds that 64 bits cannot hold are noticed before what
stands behind the two numbers, and a time beyond the clock is noticed last. -/
def decode : Draft → Except Fault Instant
  | .object fields fault => do
    let t ← fold decodeField (none, none) fields fault
    let seconds ← required t.1
    let nanos ← required t.2
    ofClock seconds nanos
  | .array items fault => do
    let (seconds, items) ← Items.next ⟨items, fault⟩ decodeSeconds
    let (nanos, items) ← items.next decodeNanos
    if wordBound ≤ seconds + nanos / perSecond then .error .mismatched
    else (items.finish ()).bind fun _ => ofClock seconds nanos
  | draft => .error (mismatch draft)

end Instant

/-! ## Mistakes -/

namespace Diagnostic

def encode (d : Diagnostic) : Json :=
  .object [("kind", .string d.kind.name), ("tag", .string d.tag)]

def kindOfName (name : String) : Except Fault DiagnosticKind :=
  required (DiagnosticKind.ofName? name)

/-- A kind is written as its name or as an object that maps its name to null. Whatever starts
neither a string nor an object is refused at its first character. -/
def decodeKind : Draft → Except Fault DiagnosticKind
  | .string name => name.bind kindOfName
  | .object [] fault => .error (fault.getD .malformed)
  | .object ((name, value) :: rest) fault => do
    let kind ← kindOfName (← nameOf name)
    match value, rest with
    | .null, [] => unlessStopped kind fault
    | .null, _ :: _ => .error .malformed
    | value, _ => .error (mismatch value)
  | .broken place => .error place.named
  | .null | .bool _ | .number _ | .array _ _ => .error .malformed

/-- Reads a field of a mistake; other fields are passed over. -/
def decodeField (d : Option DiagnosticKind × Option String) (name : String) (value : Draft) :
    Except Fault (Option DiagnosticKind × Option String) :=
  if name = "kind" then fill d.1 decodeKind value fun k => (some k, d.2)
  else if name = "tag" then fill d.2 text value fun t => (d.1, some t)
  else (skip value).map fun _ => d

def decode : Draft → Except Fault Diagnostic
  | .object fields fault => do
    let d ← fold decodeField (none, none) fields fault
    let kind ← required d.1
    let tag ← required d.2
    return ⟨kind, tag⟩
  | .array items fault => do
    let (kind, items) ← Items.next ⟨items, fault⟩ decodeKind
    let (tag, items) ← items.next text
    items.finish ⟨kind, tag⟩
  | draft => .error (mismatch draft)

end Diagnostic

/-! ## Artifacts -/

namespace Artifact

def encodePaths (paths : List Path) : Json :=
  .array (paths.map fun p => .string p.text)

/-- The object of an artifact whose time is not before 1970. -/
def encode? (a : Artifact) : Option Json :=
  a.recorded.encode?.map fun recorded =>
    .object
      [("source_identity", encodePaths a.identity), ("code", .string a.code),
        ("recorded_mtime", recorded), ("existing_sources", encodePaths a.existing),
        ("diagnostics", .array (a.diagnostics.map Diagnostic.encode))]

/-- The text of an artifact. A time before 1970 cannot be written. -/
def write (a : Artifact) : Except Fault String :=
  match a.encode? with
  | some j => .ok j.print
  | none => .error .mismatched

def decodePath (draft : Draft) : Except Fault Path :=
  (text draft).map Path.mk

def decodePaths : Draft → Except Fault (List Path) :=
  list decodePath

def decodeDiagnostics : Draft → Except Fault (List Diagnostic) :=
  list Diagnostic.decode

structure Fields where
  identity : Option (List Path)
  code : Option String
  recorded : Option Instant
  existing : Option (List Path)
  diagnostics : Option (List Diagnostic)
  deriving Inhabited

def Fields.none : Fields := ⟨.none, .none, .none, .none, .none⟩

/-- Reads a field of an artifact; other fields are passed over. -/
def decodeField (a : Fields) (name : String) (value : Draft) : Except Fault Fields :=
  if name = "source_identity" then
    fill a.identity decodePaths value fun v => { a with identity := some v }
  else if name = "code" then fill a.code text value fun v => { a with code := some v }
  else if name = "recorded_mtime" then
    fill a.recorded Instant.decode value fun v => { a with recorded := some v }
  else if name = "existing_sources" then
    fill a.existing decodePaths value fun v => { a with existing := some v }
  else if name = "diagnostics" then
    fill a.diagnostics decodeDiagnostics value fun v => { a with diagnostics := some v }
  else (skip value).map fun _ => a

/-- The artifact of a draft. The last two fields may be missing. -/
def decode : Draft → Except Fault Artifact
  | .object fields fault => do
    let a ← fold decodeField .none fields fault
    let identity ← required a.identity
    let code ← required a.code
    let recorded ← required a.recorded
    return ⟨identity, code, recorded, a.existing.getD [], a.diagnostics.getD []⟩
  | .array items fault => do
    let (identity, items) ← Items.next ⟨items, fault⟩ decodePaths
    let (code, items) ← items.next text
    let (recorded, items) ← items.next Instant.decode
    let (existing, items) ← items.next? decodePaths
    let (diagnostics, items) ← items.next? decodeDiagnostics
    items.finish ⟨identity, code, recorded, existing.getD [], diagnostics.getD []⟩
  | draft => .error (mismatch draft)

def read (content : Content) : Except Fault Artifact :=
  Json.readWith decode content

end Artifact

end LayeredTags
