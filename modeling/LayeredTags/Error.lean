import LayeredTags.Diagnostic
import LayeredTags.Json.Fault

/-!
# Errors

Each error is a cause; its wording is given by a function `message`.

* `OsError`: what the disk refuses.
* `SourceError`: failures to find or load the sources of a template.
* `StoreError`: failures of a store of artifacts.
* `TemplateError`: failures to produce a compiled template.
* `EngineError`: failures of an operation of the engine.
-/

namespace LayeredTags

/-- What the disk refuses. -/
inductive OsError where
  | notFound
  | alreadyExists
  | notADirectory
  | isADirectory
  /-- a name or the whole path has more bytes than a disk takes -/
  | nameTooLong
  /-- the path holds a NUL character, which no path may -/
  | nulInPath
  /-- the path to move a file to holds a NUL character -/
  | invalidArgument
  /-- the file is read as text and holds bytes that are none -/
  | notText
  deriving DecidableEq, Repr, Inhabited

def OsError.message : OsError → String
  | notFound => "No such file or directory (os error 2)"
  | alreadyExists => "File exists (os error 17)"
  | notADirectory => "Not a directory (os error 20)"
  | isADirectory => "Is a directory (os error 21)"
  | nameTooLong => "File name too long (os error 36)"
  | invalidArgument => "Invalid argument (os error 22)"
  | nulInPath => "file name contained an unexpected NUL byte"
  | notText => "stream did not contain valid UTF-8"

def noCandidateMessage (name : String) : String :=
  "No candidate source exists for template '" ++ name ++ "'"

/-- A failure to find or load the sources of a template. -/
inductive SourceError where
  | noCandidate (name : String)
  | loadFailed (path message : String)
  | io (message : String)
  deriving DecidableEq, Repr, Inhabited

def SourceError.message : SourceError → String
  | noCandidate name => noCandidateMessage name
  | loadFailed path message => "Failed to load template source '" ++ path ++ "': " ++ message
  | io message => "I/O error: " ++ message

/-- A failure of a store of artifacts. -/
inductive StoreError where
  | io (message : String)
  | format (fault : Json.Fault)
  | persist (path message : String)
  /-- another holder of the store failed while it was writing -/
  | poisoned
  deriving DecidableEq, Repr, Inhabited

def StoreError.message : StoreError → String
  | io message => "I/O error: " ++ message
  | format fault => "Artifact serialization error: " ++ fault.message
  | persist path message => "Failed to persist artifact '" ++ path ++ "': " ++ message
  | poisoned => "Cache store lock poisoned"

/-- A failure to produce a compiled template. -/
inductive TemplateError where
  /-- strict mode does not recover from mistakes -/
  | strict (diagnostics : List Diagnostic)
  | noCandidate (name : String)
  | sourceUnreadable (path message : String)
  | cache (message : String)
  | io (message : String)
  deriving DecidableEq, Repr, Inhabited

namespace TemplateError

def message : TemplateError → String
  | strict diagnostics =>
    "Strict mode rejected template: " ++ "; ".intercalate (diagnostics.map Diagnostic.message)
  | noCandidate name => noCandidateMessage name
  | sourceUnreadable path message =>
    "Failed to read template source '" ++ path ++ "': " ++ message
  | cache message => "Cache error: " ++ message
  | io message => "IO error: " ++ message

def ofSourceError : SourceError → TemplateError
  | .noCandidate name => noCandidate name
  | .loadFailed path message => sourceUnreadable path message
  | .io message => sourceUnreadable "" message

def ofStoreError (e : StoreError) : TemplateError :=
  cache e.message

end TemplateError

/-- A failure of an operation of the engine. -/
inductive EngineError where
  | template (e : TemplateError)
  | source (e : SourceError)
  | store (e : StoreError)
  | render (message : String)
  | settings (message : String)
  | io (message : String)
  | json (fault : Json.Fault)
  deriving DecidableEq, Repr, Inhabited

def EngineError.message : EngineError → String
  | template e => "Template error: " ++ e.message
  | source e => "Resource error: " ++ e.message
  | store e => "Cache error: " ++ e.message
  | render message => "Rendering failed: " ++ message
  | settings message => "Configuration error: " ++ message
  | io message => "I/O error: " ++ message
  | json fault => "JSON error: " ++ fault.message

end LayeredTags
