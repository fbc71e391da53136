import LayeredTags.Artifact.Basic
import LayeredTags.Artifact.Format
import LayeredTags.Attributes.Basic
import LayeredTags.Attributes.Reader
import LayeredTags.Cache.Key
import LayeredTags.Cache.Manager
import LayeredTags.CommandLine
import LayeredTags.Compile.Compiler
import LayeredTags.Compile.Emission
import LayeredTags.Compile.Pass
import LayeredTags.CoreTags
import LayeredTags.Diagnostic
import LayeredTags.Engine.Basic
import LayeredTags.Engine.Settings
import LayeredTags.Engine.Setup
import LayeredTags.Error
import LayeredTags.FileSystem
import LayeredTags.Instant
import LayeredTags.Json.Decimal
import LayeredTags.Json.Decode
import LayeredTags.Json.Draft
import LayeredTags.Json.Fault
import LayeredTags.Json.Lexeme
import LayeredTags.Json.Number
import LayeredTags.Json.Value
import LayeredTags.Main
import LayeredTags.Mustache.Helper.Basic
import LayeredTags.Mustache.Helper.Result
import LayeredTags.Mustache.Render
import LayeredTags.Mustache.Scope
import LayeredTags.Mustache.Tag
import LayeredTags.Mustache.Template
import LayeredTags.Mustache.Value
import LayeredTags.Mustache.ValuePath
import LayeredTags.Node.Basic
import LayeredTags.Node.Builder
import LayeredTags.Override.Chain
import LayeredTags.Override.Stack
import LayeredTags.Path
import LayeredTags.Registry
import LayeredTags.Source.Candidates
import LayeredTags.Source.Resolver
import LayeredTags.Store.Basic
import LayeredTags.Store.Directory
import LayeredTags.Store.Storage
import LayeredTags.Text.Alphanumeric
import LayeredTags.Text.Blank
import LayeredTags.Text.CaseTable
import LayeredTags.Text.Casing
import LayeredTags.Text.CharClass
import LayeredTags.Text.Glyph
import LayeredTags.Text.Quoted
import LayeredTags.Text.Unprintable
import LayeredTags.Token.Basic
import LayeredTags.Token.Lexer
import LayeredTags.Proofs.Artifact.Format
import LayeredTags.Proofs.Attributes.Reader
import LayeredTags.Proofs.Cache.Edit
import LayeredTags.Proofs.Cache.Key
import LayeredTags.Proofs.Cache.Manager
import LayeredTags.Proofs.Cache.Reuse
import LayeredTags.Proofs.Cache.Run
import LayeredTags.Proofs.Compile.Dangling
import LayeredTags.Proofs.Compile.Environment
import LayeredTags.Proofs.Compile.Influence
import LayeredTags.Proofs.Compile.Machine
import LayeredTags.Proofs.Compile.Moment
import LayeredTags.Proofs.Compile.NamedTags
import LayeredTags.Proofs.Compile.ParentCall
import LayeredTags.Proofs.Compile.Place
import LayeredTags.Proofs.Compile.Restoration
import LayeredTags.Proofs.Compile.Strictness
import LayeredTags.Proofs.Compile.Termination
import LayeredTags.Proofs.Compile.Transparency
import LayeredTags.Proofs.CoreTags.Literals
import LayeredTags.Proofs.CoreTags.Nesting
import LayeredTags.Proofs.CoreTags.Reading
import LayeredTags.Proofs.CoreTags.Strands
import LayeredTags.Proofs.Engine.Fallback
import LayeredTags.Proofs.Engine.OnDisk
import LayeredTags.Proofs.Engine.Outcome
import LayeredTags.Proofs.Engine.Race
import LayeredTags.Proofs.Engine.Registration
import LayeredTags.Proofs.Engine.Session
import LayeredTags.Proofs.Engine.Site
import LayeredTags.Proofs.Engine.Steps
import LayeredTags.Proofs.Engine.Strict
import LayeredTags.Proofs.Engine.Vanished
import LayeredTags.Proofs.FileSystem
import LayeredTags.Proofs.Json.Draft
import LayeredTags.Proofs.Json.Lexeme
import LayeredTags.Proofs.Mustache.Template
import LayeredTags.Proofs.Node.Bracketing
import LayeredTags.Proofs.Node.Builder
import LayeredTags.Proofs.Node.Cut
import LayeredTags.Proofs.Node.Marks
import LayeredTags.Proofs.Node.Printer
import LayeredTags.Proofs.Node.RoundTrip
import LayeredTags.Proofs.Node.Shape
import LayeredTags.Proofs.Node.Unwrap
import LayeredTags.Proofs.Node.Walk
import LayeredTags.Proofs.Override.Owner
import LayeredTags.Proofs.Override.Table
import LayeredTags.Proofs.Path
import LayeredTags.Proofs.Source.Candidates
import LayeredTags.Proofs.Source.Disk
import LayeredTags.Proofs.Source.Memory
import LayeredTags.Proofs.Source.Theme
import LayeredTags.Proofs.Source.View
import LayeredTags.Proofs.Store.Agreement
import LayeredTags.Proofs.Store.AllOrNothing
import LayeredTags.Proofs.Store.Apart
import LayeredTags.Proofs.Store.Directory
import LayeredTags.Proofs.Store.Held
import LayeredTags.Proofs.Token.AttributeText
import LayeredTags.Proofs.Token.Edge
import LayeredTags.Proofs.Token.Spelling
import LayeredTags.Proofs.Token.Split
