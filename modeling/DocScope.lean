import DocScope.Analysis.Language
import DocScope.Analysis.LineScan
import DocScope.Analysis.Source
import DocScope.Check.Declaration
import DocScope.Check.Selector
import DocScope.Cli.Arguments
import DocScope.Cli.Check
import DocScope.Cli.Command
import DocScope.Cli.Docs
import DocScope.Cli.Outcome
import DocScope.Cli.Program
import DocScope.Config.Basic
import DocScope.Config.Decode
import DocScope.Diff.Ascending
import DocScope.Diff.ChangedFiles
import DocScope.Diff.Hunk
import DocScope.Diff.PathText
import DocScope.Diff.VersionControl
import DocScope.Docs.DocComment
import DocScope.Docs.Entry
import DocScope.Docs.Readme
import DocScope.Docs.Section
import DocScope.Files.Path
import DocScope.Files.Tree
import DocScope.Git.Command
import DocScope.Glob.Match
import DocScope.Glob.Pattern
import DocScope.Grammar.Basic
import DocScope.Grammar.Expressions
import DocScope.Grammar.Glyph
import DocScope.Grammar.Rule
import DocScope.Grammar.Script
import DocScope.Grammar.Semicolon
import DocScope.Grammar.Statements
import DocScope.Grammar.Terminal
import DocScope.Grammar.Types
import DocScope.Json.Basic
import DocScope.Json.Printer
import DocScope.Json.Reader
import DocScope.Main
import DocScope.Run.Finding
import DocScope.Run.Options
import DocScope.Run.Report
import DocScope.Run.Rule
import DocScope.Run.Runner
import DocScope.Run.SourceFiles
import DocScope.Scope.Cache
import DocScope.Scope.Resolver
import DocScope.Source.Comment
import DocScope.Source.FunctionNode
import DocScope.Source.Span
import DocScope.Text.Blank
import DocScope.Text.Hex
import DocScope.Text.Lines
import DocScope.Text.Quoted
import DocScope.Text.Unprinted
import DocScope.Text.Utf8
import DocScope.Text.Word
import DocScope.Tree.Basic
import DocScope.Tree.Functions
import DocScope.Tree.Parser
import DocScope.Yaml.Cursor
import DocScope.Yaml.Integer
import DocScope.Yaml.Node
import DocScope.Yaml.Property
import DocScope.Yaml.Scalar
import DocScope.Yaml.Scan
import DocScope.Yaml.Token
import DocScope.Proofs.Diff.ChangedFiles
import DocScope.Proofs.Diff.Hunk
import DocScope.Proofs.Diff.ZeroContext
import DocScope.Proofs.Git.Output
import DocScope.Proofs.Scope.Remembered
import DocScope.Proofs.Scope.SharedCache
import DocScope.Proofs.Scope.Recorded
import DocScope.Proofs.Scope.SourceRoots
import DocScope.Proofs.Scope.Backends
import DocScope.Proofs.Run.FileOrder
import DocScope.Proofs.Run.Findings
import DocScope.Proofs.Run.Order
import DocScope.Proofs.Run.Restriction
import DocScope.Proofs.Run.Diagnostics
import DocScope.Proofs.Scope.Failures
import DocScope.Proofs.Run.Failures
import DocScope.Proofs.Files.Rewrite
import DocScope.Proofs.Files.Names
import DocScope.Proofs.Files.Resolution
import DocScope.Proofs.Files.Walk
import DocScope.Proofs.Docs.Scan
import DocScope.Proofs.Docs.Slot
import DocScope.Proofs.Docs.Extraction
import DocScope.Proofs.Docs.Rendering
import DocScope.Proofs.Docs.Overwriting
import DocScope.Proofs.Docs.Rerun
import DocScope.Proofs.Docs.Preservation
import DocScope.Proofs.Docs.Blocks
import DocScope.Proofs.Docs.Dedent
import DocScope.Proofs.Docs.Printing
import DocScope.Proofs.Cli.Scanned
import DocScope.Proofs.Cli.Reported
import DocScope.Proofs.Cli.Modes
import DocScope.Proofs.Cli.Containment
import DocScope.Proofs.Docs.Replacement
import DocScope.Proofs.Docs.Shares
import DocScope.Proofs.Docs.SelfContained
import DocScope.Proofs.Docs.Layout
import DocScope.Proofs.Docs.OnePass
import DocScope.Proofs.Diff.AddedLines
import DocScope.Proofs.Files.Below
import DocScope.Proofs.Text.ByteOrder
import DocScope.Proofs.Files.Collection
import DocScope.Proofs.Grammar.Reads
import DocScope.Proofs.Grammar.Values
import DocScope.Proofs.Tree.LeadingComments
import DocScope.Proofs.Tree.Places
import DocScope.Proofs.Tree.Row
import DocScope.Proofs.Run.Grouping
import DocScope.Proofs.Grammar.Nesting
import DocScope.Proofs.Grammar.Fuel
import DocScope.Proofs.Diff.NormalPaths
import DocScope.Proofs.Diff.Components
import DocScope.Proofs.Docs.NestedTypes
import DocScope.Proofs.Run.ChangedPaths
import DocScope.Proofs.Git.QuotedNames
import DocScope.Proofs.Tree.Parentheses
import DocScope.Proofs.Source.Offsets
import DocScope.Proofs.Analysis.Tiling
import DocScope.Proofs.Analysis.Declarations
import DocScope.Proofs.Analysis.DocBlocks
