import LayeredTags.Engine.Setup

/-!
# The command line

Two commands: `render NAME` prints a rendered template, `compile NAME` prints its code and the
mistakes that were recovered from.

* `Command.parse?`: the command that arguments spell.
* `Command.run`: what a command prints, and the disk behind it.
* `Command.filesNeeded`: the files that a command reads or writes besides settings and data.
-/

namespace LayeredTags

/-- The options of both commands. -/
structure EngineArguments where
  /-- theme directories, the most specific first -/
  themes : List Path
  settingsFile : Option Path
  extension : Option String
  cacheDirectory : Option Path
  strict : Bool
  deriving DecidableEq, Repr, Inhabited

inductive Action where
  /-- render it with the data of a file, or without data -/
  | render (data : Option Path)
  | compile
  deriving DecidableEq, Repr, Inhabited

/-- A command with the name of a template and its options. -/
structure Command where
  action : Action
  name : String
  arguments : EngineArguments
  deriving DecidableEq, Repr, Inhabited

/-- What a command leaves: the exit status, the output and the lines of the error output. -/
structure CommandResult where
  exit : Nat
  output : String
  errors : List String
  deriving DecidableEq, Repr, Inhabited

namespace Command

def data (c : Command) : Option Path :=
  match c.action with
  | .render data => data
  | .compile => none

/-! ## Arguments -/

structure Draft where
  name : Option String
  data : Option Path
  arguments : EngineArguments
  verbose : Bool

/-- A path argument, which must not be empty. -/
def pathArgument (value : String) : Option Path :=
  if value = "" then none else some ⟨value⟩

def setOnce {α β : Type} (old : Option α) (new : Option α) (set : Option α → β) : Option β :=
  match old, new with
  | none, some a => some (set (some a))
  | _, _ => none

/-- Reads an option with a value. Only rendering reads data. -/
def Draft.withValue (d : Draft) (rendering : Bool) (option value : String) : Option Draft :=
  let a := d.arguments
  if option = "--theme" then
    (pathArgument value).map fun p => { d with arguments := { a with themes := a.themes ++ [p] } }
  else if option = "--config" then
    setOnce a.settingsFile (pathArgument value) fun p =>
      { d with arguments := { a with settingsFile := p } }
  else if option = "--extension" then
    setOnce a.extension (some value) fun e => { d with arguments := { a with extension := e } }
  else if option = "--cache-dir" then
    setOnce a.cacheDirectory (pathArgument value) fun p =>
      { d with arguments := { a with cacheDirectory := p } }
  else if option = "--data" ∧ rendering then
    setOnce d.data (pathArgument value) fun p => { d with data := p }
  else none

/-- Reads an option without a value. -/
def Draft.withFlag (d : Draft) (option : String) : Option Draft :=
  if option = "--strict" ∧ !d.arguments.strict then
    some { d with arguments := { d.arguments with strict := true } }
  else if (option = "--verbose" ∨ option = "-v") ∧ !d.verbose then some { d with verbose := true }
  else none

/-- The options that take a value. -/
def valueOptions : List String :=
  ["--theme", "--config", "--extension", "--cache-dir", "--data"]

/-- Whether an argument looks like an option. A single dash does not. -/
def isOption (argument : String) : Bool :=
  match argument.toList with
  | ['-'] => false
  | '-' :: _ => true
  | _ => false

/-- Reads an argument that is no option: the name of the template, once. -/
def Draft.withName (d : Draft) (name : String) : Option Draft :=
  setOnce d.name (some name) fun n => { d with name := n }

/-- The parts of an argument before and behind its first equals sign. -/
def splitEquals (argument : String) : Option (String × String) :=
  let cs := argument.toList
  match cs.dropWhile (· ≠ '=') with
  | [] => none
  | _ :: value => some (String.ofList (cs.takeWhile (· ≠ '=')), String.ofList value)

/-- Reads the arguments of a command. Behind a double dash no argument is an option. -/
def readArguments (rendering : Bool) (d : Draft) : List String → Option Draft
  | [] => some d
  | argument :: rest =>
    if argument = "--" then rest.foldlM Draft.withName d
    else if isOption argument then
      match splitEquals argument with
      | some (option, value) =>
        if valueOptions.contains option then
          (d.withValue rendering option value).bind fun d => readArguments rendering d rest
        else none
      | none =>
        if valueOptions.contains argument then
          match rest with
          | [] => none
          | value :: rest =>
            if isOption value then none
            else (d.withValue rendering argument value).bind fun d => readArguments rendering d rest
        else (d.withFlag argument).bind fun d => readArguments rendering d rest
    else (d.withName argument).bind fun d => readArguments rendering d rest

/-- Drops the verbose flag in front of the command, which may stand there once. -/
def dropVerbose : List String → List String
  | first :: rest => if first = "-v" ∨ first = "--verbose" then rest else first :: rest
  | [] => []

/-- The command that arguments spell. -/
def parse? (arguments : List String) : Option Command :=
  match dropVerbose arguments with
  | [] => none
  | command :: rest =>
    let draft : Draft := ⟨none, none, ⟨[], none, none, none, false⟩, false⟩
    if command = "render" then do
      let d ← readArguments true draft rest
      let name ← d.name
      return ⟨.render d.data, name, d.arguments⟩
    else if command = "compile" then do
      let d ← readArguments false draft rest
      let name ← d.name
      return ⟨.compile, name, d.arguments⟩
    else none

/-! ## Running -/

/-- The settings of the options: they are read from a file, if one is given, and the other options
come on top. -/
def settings (disk : FileSystem) (a : EngineArguments) : Except EngineError EngineSettings := do
  let base ←
    match a.settingsFile with
    | some path => EngineSettings.load disk path
    | none => .ok .default
  return { base with
    themeDirectories := if a.themes = [] then base.themeDirectories else a.themes
    extension := a.extension.getD base.extension
    cacheDirectory := a.cacheDirectory.or base.cacheDirectory
    strict := base.strict || a.strict }

def loadData (disk : FileSystem) : Option Path → Except EngineError Json
  | none => .ok (.object [])
  | some path =>
    match disk.readText path with
    | .ok json => (Json.read (.ofString json)).mapError .json
    | .error e =>
      .error (.io ("Failed to read data from '" ++ path.text ++ "': " ++ e.message))

/-- What an operation prints, and the disk behind it. -/
def execute (disk : FileSystem) (now : Instant) (c : Command) :
    Except EngineError (String × List String) × FileSystem :=
  match (settings disk c.arguments).bind fun s => EngineSetup.buildFrom s disk with
  | .error e => (.error e, disk)
  | .ok engine =>
    match c.action with
    | .render data =>
      match loadData disk data with
      | .error e => (.error e, disk)
      | .ok context =>
        let r := engine.render now c.name context
        (r.1.map fun (text, _) => (text, []), r.2.cache.store.disk)
    | .compile =>
      let r := engine.compileArtifact now c.name
      (r.1.map fun (artifact, _) =>
          (artifact.code,
            artifact.diagnostics.map fun d => "warning: recovered from " ++ d.message),
        r.2.cache.store.disk)

def run (disk : FileSystem) (now : Instant) (c : Command) : CommandResult × FileSystem :=
  let r := c.execute disk now
  (match r.1 with
    | .ok (output, warnings) => ⟨0, output, warnings⟩
    | .error e => ⟨1, "", ["Error: " ++ e.message]⟩,
    r.2)

/-- The files that hold the sources of the template and its artifact, under given settings. -/
def filesNeeded (c : Command) (s : EngineSettings) : List Path :=
  let identity := (ThemeSettings.mk s.themeDirectories s.extension).candidates c.name
  identity ++ (s.cacheDirectory.map fun directory =>
    (DirectoryStore.mk directory .empty).path (cacheKey identity)).toList

def usageStatus : Nat := 2

def usage : String :=
  "usage: render NAME [--data FILE] [OPTION]...\n" ++
    "       compile NAME [OPTION]...\n" ++
    "options: --theme DIR (may be repeated), --config FILE, --extension EXT, --cache-dir DIR,\n" ++
    "         --strict, --verbose"

end Command

end LayeredTags
