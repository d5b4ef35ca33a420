import FieldWiring.Text.Blank
import FieldWiring.Text.Half
import FieldWiring.Text.Dotted
import FieldWiring.Text.CaseTable
import FieldWiring.Text.PrintableTable
import FieldWiring.Text.DigitTable
import FieldWiring.Text.Case
import FieldWiring.Text.Quoted
import FieldWiring.Text.Numeral
import FieldWiring.Text.Lines
import FieldWiring.Text.Utf8
import FieldWiring.Digest.Sha256
import FieldWiring.Marker
import FieldWiring.TypeReference
import FieldWiring.Declaration
import FieldWiring.Listing
import FieldWiring.Traversal
import FieldWiring.Generator
import FieldWiring.Vendored
import FieldWiring.Corpus
import FieldWiring.Fault
import FieldWiring.Hierarchy
import FieldWiring.Candidate
import FieldWiring.Sources
import FieldWiring.Number.Double
import FieldWiring.Yaml.Value
import FieldWiring.Yaml.Token
import FieldWiring.Yaml.Tag
import FieldWiring.Yaml.Node
import FieldWiring.Yaml.Build
import FieldWiring.Glob
import FieldWiring.Exclusion
import FieldWiring.CSharp.Lexeme
import FieldWiring.CSharp.Token
import FieldWiring.CSharp.Syntax
import FieldWiring.CSharp.Reader
import FieldWiring.Files.Path
import FieldWiring.Files.Tree
import FieldWiring.Files.Access
import FieldWiring.Files.Change
import FieldWiring.RunError
import FieldWiring.Configuration
import FieldWiring.Scan
import FieldWiring.Template.Value
import FieldWiring.Template.Loop
import FieldWiring.Template.Basic
import FieldWiring.Template.Reader
import FieldWiring.Resolver
import FieldWiring.Log
import FieldWiring.Generation
import FieldWiring.Diagnostics
import FieldWiring.Json.Symbols
import FieldWiring.Json.Value
import FieldWiring.Output.Manifest
import FieldWiring.Output.Publish
import FieldWiring.Frontend
import FieldWiring.Session
import FieldWiring.Moment
import FieldWiring.Project
import FieldWiring.CommandLine.Form
import FieldWiring.CommandLine.Reading
import FieldWiring.CommandLine.Command
import FieldWiring.CommandLine.Call
import FieldWiring.Main
import FieldWiring.Proofs.Text.Leading
import FieldWiring.Proofs.Text.Trimming
import FieldWiring.Proofs.Template.Layout
import FieldWiring.Proofs.Template.Lines
import FieldWiring.Proofs.Sessions.Course
import FieldWiring.Proofs.Walks.Comparing
import FieldWiring.Proofs.Walks.Locality
import FieldWiring.Proofs.Generation.Verdict
import FieldWiring.Proofs.Generation.Kinds
import FieldWiring.Proofs.Generation.Reordering
import FieldWiring.Proofs.Generation.FurtherPart
import FieldWiring.Proofs.Imports.Capture
import FieldWiring.Proofs.Imports.Globals
import FieldWiring.Proofs.Json.RoundTrip
import FieldWiring.Proofs.Files.Following
import FieldWiring.Proofs.Files.Acts
import FieldWiring.Proofs.Files.Grounded
import FieldWiring.Proofs.Files.Sparing
import FieldWiring.Proofs.Files.Overlay
import FieldWiring.Proofs.Scanning.OutputNames
import FieldWiring.Proofs.Scanning.Roots
import FieldWiring.Proofs.Scanning.SourceNames
import FieldWiring.Proofs.Scanning.Walk
import FieldWiring.Proofs.Sessions.Notes
import FieldWiring.Proofs.Output.Manifest
import FieldWiring.Proofs.Output.Writing
import FieldWiring.Proofs.Output.Pruning
import FieldWiring.Proofs.Output.Names
import FieldWiring.Proofs.Output.Publishing
import FieldWiring.Proofs.Output.History
import FieldWiring.Proofs.Output.Ownership
import FieldWiring.Proofs.Output.Losses
import FieldWiring.Proofs.Scanning.Rereading
import FieldWiring.Proofs.Scanning.Admission
import FieldWiring.Proofs.Scanning.Levels
import FieldWiring.Proofs.Generation.Preparation
import FieldWiring.Proofs.Output.Republishing
import FieldWiring.Proofs.Generation.Rerun
import FieldWiring.Proofs.Output.Fresh
import FieldWiring.Proofs.Yaml.Plain
import FieldWiring.Proofs.Generation.Pool
import FieldWiring.Proofs.Generation.Agreement
import FieldWiring.Proofs.CSharp.Places
import FieldWiring.Proofs.CSharp.Lines
import FieldWiring.Proofs.CSharp.Loading
import FieldWiring.Proofs.CSharp.Pieces
import FieldWiring.Proofs.CSharp.Statements
import FieldWiring.Proofs.CSharp.Classes
import FieldWiring.Proofs.Template.Plain
import FieldWiring.Proofs.Generation.Reopening
import FieldWiring.Proofs.Walks.Ascent
import FieldWiring.Proofs.Resolution.Ranks
import FieldWiring.Proofs.Resolution.Order
import FieldWiring.Proofs.Resolution.TypeNames
import FieldWiring.Proofs.Resolution.Spelling
import FieldWiring.Proofs.Template.Keys
import FieldWiring.Proofs.Template.Verbatim
import FieldWiring.Proofs.Template.Writing
import FieldWiring.Proofs.Template.Spilling
import FieldWiring.Proofs.Imports.Gathering
import FieldWiring.Proofs.Walks.OpenTypes
import FieldWiring.Proofs.Scanning.FurtherPattern
import FieldWiring.Proofs.Json.Settled
import FieldWiring.Proofs.Output.Reloading
import FieldWiring.Proofs.Output.Obstacles
import FieldWiring.Proofs.Discovery.Vendored
import FieldWiring.Proofs.Discovery.Frontends
import FieldWiring.Proofs.Scanning.Fingerprint
import FieldWiring.Proofs.Resolution.Namespaces
import FieldWiring.Proofs.Imports.Rooted
import FieldWiring.Proofs.Configuration.Showing
import FieldWiring.Proofs.Configuration.Coercion
import FieldWiring.Proofs.Configuration.Reading
