import LayeredTags.Json.Lexeme

/-!
# JSON texts read as far as they go

A refused text is still read up to its first fault, so that whoever asks for a certain shape meets
the faults and the unexpected parts of the text in the order in which they stand there.

* `Draft`: a value, possibly cut off by a fault.
* `Document.read`: the draft of a content.
-/

namespace LayeredTags.Json

/-- A JSON value as it is written. Arrays and objects keep the fault, if any, at which their
reading stopped; the keys of an object are strings unless that fault is at the key. -/
inductive Draft where
  | null
  | bool (b : Bool)
  | number (n : Numeral)
  | string (text : Except Fault String)
  | array (items : List Draft) (fault : Option Fault)
  | object (fields : List (Draft × Draft)) (fault : Option Fault)
  /-- a place where a value should stand -/
  | broken (place : Break)
  deriving Inhabited

/-- An array or object under way; items and fields are held in reverse. -/
inductive Container where
  | array (reversed : List Draft)
  | object (reversed : List (Draft × Draft))
  /-- an object whose last key has no value yet -/
  | field (reversed : List (Draft × Draft)) (key : Draft)
  deriving Inhabited

/-- What may come next. -/
inductive Awaited where
  | value
  | valueOrClose
  | key
  | keyOrClose
  | colon
  | commaOrClose
  deriving DecidableEq, Repr

/-- How far a text has been read; the innermost container comes first. -/
inductive Reading where
  | open (containers : List Container) (awaited : Awaited)
  /-- the value is complete -/
  | complete (value : Draft)
  /-- something follows the value -/
  | excess (value : Draft)
  /-- a fault inside the value -/
  | stopped (value : Draft)
  deriving Inhabited

namespace Reading

/-- Puts a value in its place. -/
def place (value : Draft) : List Container → Reading
  | [] => .complete value
  | .array items :: rest => .open (.array (value :: items) :: rest) .commaOrClose
  | .object fields :: rest => .open (.object fields :: rest) .commaOrClose
  | .field fields key :: rest => .open (.object ((key, value) :: fields) :: rest) .commaOrClose

def enclose (fault : Fault) : Draft → List Container → Draft
  | inner, [] => inner
  | inner, .array items :: rest =>
    enclose fault (.array (inner :: items).reverse (some fault)) rest
  | _, .object fields :: rest => enclose fault (.object fields.reverse (some fault)) rest
  | inner, .field fields key :: rest =>
    enclose fault (.object ((key, inner) :: fields).reverse (some fault)) rest

/-- Stops at a place where a value should stand. -/
def stopAtValue (place : Break) (containers : List Container) : Reading :=
  .stopped (enclose place.asked (.broken place) containers)

/-- Stops inside the innermost container, behind its last item or field. -/
def stopBehind (fault : Fault) : List Container → Reading
  | [] => .stopped (.broken (.plain fault))
  | .array items :: rest => .stopped (enclose fault (.array items.reverse (some fault)) rest)
  | .object fields :: rest => .stopped (enclose fault (.object fields.reverse (some fault)) rest)
  | .field fields key :: rest =>
    let broken := (key, .broken (.plain fault)) :: fields
    .stopped (enclose fault (.object broken.reverse (some fault)) rest)

def value (containers : List Container) : Lexeme → Reading
  | .null => place .null containers
  | .bool b => place (.bool b) containers
  | .number n => place (.number n) containers
  | .string text => place (.string text) containers
  | .openArray => .open (.array [] :: containers) .valueOrClose
  | .openObject => .open (.object [] :: containers) .keyOrClose
  | .badString place | .bad place => stopAtValue place containers
  | .closeArray | .closeObject | .comma | .colon => stopAtValue (.plain .malformed) containers

/-- What stands where a key should stand. -/
def keyDraft : Lexeme → Draft
  | .null => .null
  | .bool b => .bool b
  | .number n => .number n
  | .string text => .string text
  | .openArray => .array [] (some .malformed)
  | .openObject => .object [] (some .malformed)
  | .badString place => .broken place
  | .bad _ | .closeArray | .closeObject | .comma | .colon => .broken (.plain .malformed)

/-- Reads a lexeme where a key should stand; only a string lets the reading go on. -/
def key (containers : List Container) (lexeme : Lexeme) : Reading :=
  match containers with
  | .object fields :: rest =>
    match lexeme with
    | .string text => .open (.field fields (.string text) :: rest) .colon
    | .badString place => stopAtValue place (.field fields (keyDraft lexeme) :: rest)
    | _ => stopAtValue (.plain .malformed) (.field fields (keyDraft lexeme) :: rest)
  | _ => stopBehind .malformed containers

def close (containers : List Container) (lexeme : Lexeme) : Option Reading :=
  match containers, lexeme with
  | .array items :: rest, .closeArray => some (place (.array items.reverse none) rest)
  | .object fields :: rest, .closeObject => some (place (.object fields.reverse none) rest)
  | _, _ => none

def step : Reading → Lexeme → Reading
  | .open containers awaited, lexeme =>
    match awaited with
    | .value => value containers lexeme
    | .valueOrClose => (close containers lexeme).getD (value containers lexeme)
    | .key => key containers lexeme
    | .keyOrClose => (close containers lexeme).getD (key containers lexeme)
    | .colon =>
      match lexeme with
      | .colon => .open containers .value
      | _ => stopAtValue (.plain .malformed) containers
    | .commaOrClose =>
      match lexeme, containers with
      | .comma, .array _ :: _ => .open containers .value
      | .comma, .object _ :: _ => .open containers .key
      | _, _ => (close containers lexeme).getD (stopBehind .malformed containers)
  | .complete draft, _ => .excess draft
  | .excess draft, _ => .excess draft
  | .stopped draft, _ => .stopped draft

def start : Reading := .open [] .value

end Reading

/-- The draft of a text and whether something follows it. -/
structure Document where
  value : Draft
  excess : Bool

namespace Document

/-- The document when no lexeme is left. A comma promises another item or field, which is then a
broken one. -/
def ofReading : Reading → Document
  | .open containers awaited =>
    let missing := Draft.broken (.plain .truncated)
    match awaited, containers with
    | .value, _ | .colon, _ => ⟨Reading.enclose .truncated missing containers, false⟩
    | .key, .object fields :: rest =>
      ⟨Reading.enclose .truncated missing (.field fields missing :: rest), false⟩
    | _, containers =>
      match Reading.stopBehind .truncated containers with
      | .stopped draft => ⟨draft, false⟩
      | _ => ⟨.broken (.plain .truncated), false⟩
  | .complete draft => ⟨draft, false⟩
  | .excess draft => ⟨draft, true⟩
  | .stopped draft => ⟨draft, false⟩

def read (content : Content) : Document :=
  ofReading ((Lexeme.split content).foldl Reading.step Reading.start)

end Document

/-- Reads a content by its draft; what follows the value is refused after the value itself. -/
def readWith {α : Type} (decode : Draft → Except Fault α) (content : Content) : Except Fault α :=
  let document := Document.read content
  match decode document.value with
  | .error fault => .error fault
  | .ok a => if document.excess then .error .malformed else .ok a

end LayeredTags.Json
