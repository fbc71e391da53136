import LayeredTags.Json.Value

/-!
# Reading values of a known shape

Every reader meets the parts of a draft in the order of the text and reports the first fault or
unexpected part.

* `Json.Decode.text`, `truth`, `natural`, `list`: readers of simple shapes.
* `Json.Decode.skip`: a value of any shape.
* `Json.Decode.Items`: an array whose items are fields in a fixed order.
* `Json.Decode.fold`: the fields of an object, in the order in which they stand.
-/

namespace LayeredTags.Json.Decode

/-- Why a draft is not of the shape that is asked for. -/
def mismatch : Draft → Fault
  | .string (.error fault) => fault
  | .number n => if n.number?.isNone then .malformed else .mismatched
  | .broken place => place.asked
  | _ => .mismatched

def text : Draft → Except Fault String
  | .string (.ok s) => .ok s
  | draft => .error (mismatch draft)

def truth : Draft → Except Fault Bool
  | .bool b => .ok b
  | draft => .error (mismatch draft)

def natural (bound : Nat) : Draft → Except Fault Nat
  | .number n =>
    match n.number? with
    | some (.natural k) => if k < bound then .ok k else .error .mismatched
    | some _ => .error .mismatched
    | none => .error .malformed
  | draft => .error (mismatch draft)

/-- A value, or nothing where null stands. -/
def optional {α : Type} (decode : Draft → Except Fault α) : Draft → Except Fault (Option α)
  | .null => .ok none
  | draft => (decode draft).map some

/-- The value, unless reading stopped behind it. -/
def unlessStopped {α : Type} (a : α) : Option Fault → Except Fault α
  | none => .ok a
  | some fault => .error fault

def list {α : Type} (decode : Draft → Except Fault α) : Draft → Except Fault (List α)
  | .array items fault => (items.mapM decode).bind fun values => unlessStopped values fault
  | draft => .error (mismatch draft)

mutual

/-- The first fault in a value of any shape, for a reader that passes over it. -/
def fault? : Draft → Option Fault
  | .null | .bool _ | .number _ | .string _ => none
  | .array items fault => (faultOfItems? items).or fault
  | .object fields fault => (faultOfFields? fields).or fault
  | .broken place => some place.passed

/-- The first fault in a list of items. -/
def faultOfItems? : List Draft → Option Fault
  | [] => none
  | item :: rest => (fault? item).or (faultOfItems? rest)

/-- The first fault in a list of fields. -/
def faultOfFields? : List (Draft × Draft) → Option Fault
  | [] => none
  | (name, value) :: rest =>
    match name with
    | .string _ => (fault? value).or (faultOfFields? rest)
    | .broken place => some place.passed
    | _ => some .malformed

end

/-- A value of any shape, which is passed over. -/
def skip (draft : Draft) : Except Fault Unit :=
  unlessStopped () (fault? draft)

/-- The items of an array that have not been read, and the fault at which it stops. -/
structure Items where
  rest : List Draft
  fault : Option Fault

namespace Items

/-- Reads the next item, if there is one. -/
def next? {α : Type} (items : Items) (decode : Draft → Except Fault α) :
    Except Fault (Option α × Items) :=
  match items.rest with
  | item :: rest => (decode item).map fun a => (some a, { items with rest := rest })
  | [] => unlessStopped (none, items) items.fault

def next {α : Type} (items : Items) (decode : Draft → Except Fault α) :
    Except Fault (α × Items) :=
  match items.next? decode with
  | .ok (some a, items) => .ok (a, items)
  | .ok (none, _) => .error .mismatched
  | .error fault => .error fault

/-- Checks that no item is left. -/
def finish {α : Type} (items : Items) (a : α) : Except Fault α :=
  match items.rest with
  | [] => unlessStopped a items.fault
  | _ :: _ => .error .malformed

end Items

/-- Reads the fields of an object one after the other. -/
def fold {α : Type} (step : α → String → Draft → Except Fault α) (a : α)
    (fields : List (Draft × Draft)) (fault : Option Fault) : Except Fault α :=
  (fields.foldlM (fun a field => (nameOf field.1).bind fun name => step a name field.2) a).bind
    fun a => unlessStopped a fault

/-- Fills a field that must not be filled yet. -/
def fill {α β : Type} (old : Option α) (decode : Draft → Except Fault α) (value : Draft)
    (set : α → β) : Except Fault β :=
  match old with
  | some _ => .error .mismatched
  | none => (decode value).map set

/-- A field that must be there. -/
def required {α : Type} : Option α → Except Fault α
  | some a => .ok a
  | none => .error .mismatched

end LayeredTags.Json.Decode
