import Typescribe.Decimal.Shortest
import Typescribe.Disk.Basic
import Typescribe.Disk.Writing
import Typescribe.Generation.Error
import Typescribe.Generation.KnownTypes
import Typescribe.Generation.Location
import Typescribe.Generation.Naming
import Typescribe.Generation.Placeholder
import Typescribe.Generation.RecordClass
import Typescribe.Generation.References
import Typescribe.Generation.Run
import Typescribe.Generation.ServiceModule
import Typescribe.Generation.Session
import Typescribe.Generation.TypeModule
import Typescribe.Json.Numeral
import Typescribe.Json.Passing
import Typescribe.Json.Quoted
import Typescribe.Json.Text
import Typescribe.Json.Tree
import Typescribe.Json.Value
import Typescribe.Json.Writer
import Typescribe.Layout.Fragment
import Typescribe.Main
import Typescribe.Manifest.Basic
import Typescribe.Manifest.Decoding
import Typescribe.Manifest.Error
import Typescribe.Manifest.Loading
import Typescribe.Manifest.Validation
import Typescribe.Path
import Typescribe.Program.CommandLine
import Typescribe.Program.Execution
import Typescribe.Program.Report
import Typescribe.Proofs.Disk
import Typescribe.Proofs.Disk.Changes
import Typescribe.Proofs.Generation.Accounting
import Typescribe.Proofs.Generation.Binding
import Typescribe.Proofs.Generation.ClassMembers
import Typescribe.Proofs.Generation.Collisions
import Typescribe.Proofs.Generation.Confinement
import Typescribe.Proofs.Generation.Constructors
import Typescribe.Proofs.Generation.Containment
import Typescribe.Proofs.Generation.Dangling
import Typescribe.Proofs.Generation.Documentation
import Typescribe.Proofs.Generation.Emission
import Typescribe.Proofs.Generation.Emissions
import Typescribe.Proofs.Generation.Emitted
import Typescribe.Proofs.Generation.Exports
import Typescribe.Proofs.Generation.FirstDeclaration
import Typescribe.Proofs.Generation.History
import Typescribe.Proofs.Generation.Imports
import Typescribe.Proofs.Generation.Independence
import Typescribe.Proofs.Generation.Journal
import Typescribe.Proofs.Generation.KnownTypes
import Typescribe.Proofs.Generation.Location
import Typescribe.Proofs.Generation.Lockstep
import Typescribe.Proofs.Generation.MemberNames
import Typescribe.Proofs.Generation.Mirroring
import Typescribe.Proofs.Generation.PatchedOutput
import Typescribe.Proofs.Generation.Patching
import Typescribe.Proofs.Generation.Progress
import Typescribe.Proofs.Generation.Reach
import Typescribe.Proofs.Generation.Regeneration
import Typescribe.Proofs.Generation.Report
import Typescribe.Proofs.Generation.Resumption
import Typescribe.Proofs.Generation.Rewriting
import Typescribe.Proofs.Generation.Roots
import Typescribe.Proofs.Generation.Routes
import Typescribe.Proofs.Generation.Run
import Typescribe.Proofs.Generation.SettledService
import Typescribe.Proofs.Generation.SoundTemplate
import Typescribe.Proofs.Generation.Specifiers
import Typescribe.Proofs.Generation.Steps
import Typescribe.Proofs.Generation.Substitution
import Typescribe.Proofs.Generation.Success
import Typescribe.Proofs.Generation.TypeTemplate
import Typescribe.Proofs.Generation.UndocumentedModules
import Typescribe.Proofs.Generation.UserTexts
import Typescribe.Proofs.Json.Variant
import Typescribe.Proofs.Layout
import Typescribe.Proofs.Layout.Indentation
import Typescribe.Proofs.Manifest.Validation
import Typescribe.Proofs.Path
import Typescribe.Proofs.Placeholder.DerivedTexts
import Typescribe.Proofs.Placeholder.Landmark
import Typescribe.Proofs.Placeholder.Marks
import Typescribe.Proofs.Placeholder.Scanning
import Typescribe.Proofs.Placeholder.Template
import Typescribe.Proofs.Placeholder.TokenText
import Typescribe.Proofs.Schema.RoundTrip
import Typescribe.Proofs.Schema.TypeName
import Typescribe.Proofs.Schema.Undocumented
import Typescribe.Proofs.Schema.WellFormed
import Typescribe.Proofs.Store
import Typescribe.Proofs.Text.Casing
import Typescribe.Proofs.Text.CodeLines
import Typescribe.Proofs.Text.Comparison
import Typescribe.Proofs.Text.DocLines
import Typescribe.Proofs.Text.Lines
import Typescribe.Proofs.Text.Literal
import Typescribe.Proofs.Text.Occurrence
import Typescribe.Proofs.Text.Span
import Typescribe.Proofs.Traversal
import Typescribe.Proofs.TypeScript.Exports
import Typescribe.Proofs.TypeScript.Lexemes
import Typescribe.Proofs.TypeScript.TopLevel
import Typescribe.Proofs.TypeScript.UnmarkedLines
import Typescribe.Schema.Declaration
import Typescribe.Schema.Decoding
import Typescribe.Schema.Encoding
import Typescribe.Schema.FileDecoding
import Typescribe.Schema.Form
import Typescribe.Schema.Problem
import Typescribe.Schema.Scalar
import Typescribe.Schema.TypeName
import Typescribe.Store.Basic
import Typescribe.Store.Memory
import Typescribe.Text.Blank
import Typescribe.Text.Casing
import Typescribe.Text.CharSet
import Typescribe.Text.Comparison
import Typescribe.Text.Lines
import Typescribe.Text.Literal
import Typescribe.Text.Lowercase
import Typescribe.Text.LowercaseMapping
import Typescribe.Text.Search
import Typescribe.Text.Shown
import Typescribe.Text.Span
import Typescribe.Text.Uppercase
import Typescribe.Text.Utf8
import Typescribe.Toml.Document
import Typescribe.Toml.Quoted
import Typescribe.Toml.Scalar
import Typescribe.Toml.Table
import Typescribe.Toml.Value
import Typescribe.TypeScript.Member
import Typescribe.TypeScript.Module
