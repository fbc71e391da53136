import LayeredTags.Error
import LayeredTags.Instant
import LayeredTags.Path
import LayeredTags.Text.Glyph

/-!
# Disks

A disk maps locations to files and directories. A location is the list of names on the way from the
root; there are no links. A path is followed step by step, and every step must lead through a
directory. Names and paths are limited in their number of bytes.

* `FileSystem.locate`: the location that a path leads to.
* `FileSystem.readText`, `modified?`: what programs learn about a path.
* `FileSystem.createDirectories`, `createTemporary`, `rename`, `removeFile`: what programs change.
  Directories that were made stay, even if one below them cannot be made.
-/

namespace LayeredTags

/-- The names on the way from the root of a disk. -/
abbrev Location := List String

/-- A directory, or a file with the time of its last change. -/
inductive Entry where
  | directory
  | file (content : Content) (modified : Instant)
  deriving DecidableEq, Repr, Inhabited

/-- A disk: its entries, the directory that relative paths start from, and the time that it stamps
on files. The root is always a directory. -/
structure FileSystem where
  entries : List (Location × Entry)
  here : Location
  clock : Instant
  deriving Repr

namespace FileSystem

def empty : FileSystem := ⟨[(["work"], .directory)], ["work"], ⟨0⟩⟩

instance : Inhabited FileSystem := ⟨empty⟩

/-! ## Locations -/

def get? (fs : FileSystem) (location : Location) : Option Entry :=
  if location = [] then some .directory else fs.entries.lookup location

def erase (fs : FileSystem) (location : Location) : FileSystem :=
  { fs with entries := fs.entries.filter (·.1 ≠ location) }

def put (fs : FileSystem) (location : Location) (entry : Entry) : FileSystem :=
  { fs with entries := (location, entry) :: (fs.erase location).entries }

def isDirectory (fs : FileSystem) (location : Location) : Bool :=
  fs.get? location == some .directory

def namesIn (fs : FileSystem) (directory : Location) : List String :=
  let names := fs.entries.filterMap fun (location, _) =>
    if location.dropLast = directory then location.getLast? else none
  names.mergeSort fun a b => decide (a ≤ b)

/-! ## Paths -/

def nameLimit : Nat := 255

def pathLimit : Nat := 4095

def holdsNul (path : Path) : Bool :=
  path.text.toList.contains '\x00'

/-- Checks that a path can be followed at all. The empty path leads nowhere. -/
def checkPath (path : Path) : Except OsError Unit :=
  if holdsNul path then .error .nulInPath
  else if path.text = "" then .error .notFound
  else if pathLimit < path.text.utf8ByteSize then .error .nameTooLong
  else .ok ()

/-- Checks that a location that is passed through is a directory. -/
def passThrough (fs : FileSystem) (location : Location) : Except OsError Location :=
  match fs.get? location with
  | some .directory => .ok location
  | some (.file _ _) => .error .notADirectory
  | none => .error .notFound

/-- Follows steps from a location. Every location but the last must be a directory, and a name is
looked up in one only if it is not too long. -/
def follow (fs : FileSystem) : Location → List String → Except OsError Location
  | location, [] => .ok location
  | location, name :: rest => do
    let location ← fs.passThrough location
    if name = "." then fs.follow location rest
    else if name = ".." then fs.follow location.dropLast rest
    else if nameLimit < name.utf8ByteSize then .error .nameTooLong
    else fs.follow (location ++ [name]) rest

/-- The location that a path leads to, whether something is there or not. -/
def locateEntry (fs : FileSystem) (path : Path) : Except OsError Location := do
  checkPath path
  fs.follow (if path.isAbsolute then [] else fs.here) path.steps

/-- The location that a path leads to; a path that ends in a slash leads to no file. -/
def locate (fs : FileSystem) (path : Path) : Except OsError Location := do
  let location ← fs.locateEntry path
  match fs.get? location with
  | some (.file _ _) => if path.endsInSlash then .error .notADirectory else .ok location
  | _ => .ok location

def stat (fs : FileSystem) (path : Path) : Except OsError Entry := do
  let location ← fs.locate path
  match fs.get? location with
  | some entry => .ok entry
  | none => .error .notFound

/-- When the file or directory at a path was last changed, if it exists. The time of a directory is
that of the clock. -/
def modified? (fs : FileSystem) (path : Path) : Option Instant :=
  match fs.stat path with
  | .ok (.file _ modified) => some modified
  | .ok .directory => some fs.clock
  | .error _ => none

def read (fs : FileSystem) (path : Path) : Except OsError Content := do
  match ← fs.stat path with
  | .file content _ => .ok content
  | .directory => .error .isADirectory

def readText (fs : FileSystem) (path : Path) : Except OsError String := do
  let content ← fs.read path
  match content.text? with
  | some text => .ok text
  | none => .error .notText

/-- The names in the directory at a path, in order. -/
def list (fs : FileSystem) (path : Path) : Except OsError (List String) := do
  let location ← fs.locate path
  let directory ← fs.passThrough location
  return fs.namesIn directory

/-! ## Changes -/

/-- Makes a directory. -/
def createDirectory (fs : FileSystem) (path : Path) : Except OsError FileSystem := do
  let location ← fs.locateEntry path
  match fs.get? location with
  | some _ => .error .alreadyExists
  | none => .ok (fs.put location .directory)

/-- The starts of a list that are not empty, the longest first. -/
def startsOf (names : List String) : List (List String) :=
  ((List.range names.length).map fun n => names.take (n + 1)).reverse

/-- A path and the paths of the directories on the way to it, the path itself first. -/
def ancestors (path : Path) : List Path :=
  let pieces := path.components.map fun
    | .root => ""
    | .here => "."
    | .up => ".."
    | .name text => text
  path :: (startsOf pieces).tail.map fun names =>
    if names = [""] then ⟨"/"⟩ else ⟨"/".intercalate names⟩

/-- A failure to make a directory is none if the directory is there. -/
def orIsDirectory (fs : FileSystem) (path : Path) (e : OsError) : Except OsError Unit :=
  if fs.stat path matches .ok .directory then .ok () else .error e

/-- Makes a directory, given the paths from it upwards: those that are missing are made first. What
was made stays if a later one fails. -/
def createMissing (fs : FileSystem) : List Path → Except OsError Unit × FileSystem
  | [] => (.ok (), fs)
  | path :: above =>
    match fs.createDirectory path with
    | .ok fs => (.ok (), fs)
    | .error .notFound =>
      match fs.createMissing above with
      | (.error e, fs) => (.error e, fs)
      | (.ok (), fs) =>
        match fs.createDirectory path with
        | .ok fs => (.ok (), fs)
        | .error e => (fs.orIsDirectory path e, fs)
    | .error e => (fs.orIsDirectory path e, fs)

/-- Makes a directory and those above it that are missing; it may exist already. The empty path
stands for the working directory. -/
def createDirectories (fs : FileSystem) (path : Path) : Except OsError Unit × FileSystem :=
  if path.text = "" then (.ok (), fs) else fs.createMissing (ancestors path)

/-- A name that no entry of the disk has as its last name: longer than all of them. -/
def freshName (fs : FileSystem) : String :=
  let longest := fs.entries.foldl (fun n e => max n ((e.1.getLast?.map String.length).getD 0)) 0
  String.ofList ('.' :: List.replicate longest 't')

/-- Makes an empty file with a new name in a directory. The empty path stands for the working
directory. -/
def createTemporary (fs : FileSystem) (directory : Path) :
    Except OsError (Location × FileSystem) := do
  let location ← if directory.text = "" then .ok fs.here else fs.locate directory
  let location ← fs.passThrough location
  let file := location ++ [fs.freshName]
  return (file, fs.put file (.file [] fs.clock))

def write (fs : FileSystem) (file : Location) (content : Content) : FileSystem :=
  fs.put file (.file content fs.clock)

/-- Moves a file to a path, in place of a file that is there. -/
def rename (fs : FileSystem) (file : Location) (target : Path) : Except OsError FileSystem := do
  if holdsNul target then .error .invalidArgument
  let location ← fs.locate target
  match fs.get? location, fs.get? file with
  | some .directory, _ => .error .isADirectory
  | _, some entry => .ok ((fs.erase file).put location entry)
  | _, none => .error .notFound

def removeFile (fs : FileSystem) (path : Path) : Except OsError FileSystem := do
  let location ← fs.locate path
  match fs.get? location with
  | some .directory => .error .isADirectory
  | some (.file _ _) => .ok (fs.erase location)
  | none => .error .notFound

/-! ## Before and after -/

/-- The directories that a disk has and an earlier one had not, each behind the one it lies in. -/
def newDirectories (fs earlier : FileSystem) : List Path :=
  let made := fs.entries.filterMap fun (location, entry) =>
    if entry = .directory ∧ (earlier.get? location).isNone then some location else none
  (made.mergeSort fun a b => decide (a.length ≤ b.length)).map fun location =>
    ⟨"/" ++ "/".intercalate location⟩

/-! ## Preparing a disk -/

/-- Makes the directories above a location that are missing. -/
def makeParents (fs : FileSystem) (location : Location) : FileSystem :=
  (startsOf location.dropLast).reverse.foldl
    (fun fs above => if (fs.get? above).isSome then fs else fs.put above .directory) fs

/-- A step from a location whether or not it is a directory. -/
def stepLexically (location : Location) (name : String) : Location :=
  if name = "." then location
  else if name = ".." then location.dropLast
  else location ++ [name]

/-- Puts an entry at a path, and the directories above it. -/
def plant (fs : FileSystem) (path : Path) (entry : Entry) : FileSystem :=
  let start := if path.isAbsolute then [] else fs.here
  let location := path.steps.foldl stepLexically start
  (fs.makeParents location).put location entry

end FileSystem

end LayeredTags
