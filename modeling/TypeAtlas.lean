import TypeAtlas.Analysis.Batch
import TypeAtlas.Analysis.Run
import TypeAtlas.Artifact.Layout
import TypeAtlas.Artifact.Store
import TypeAtlas.Cli.Arguments
import TypeAtlas.Cli.Help
import TypeAtlas.Cli.Report
import TypeAtlas.Cli.Session
import TypeAtlas.Config.Basic
import TypeAtlas.Config.File
import TypeAtlas.Config.Template
import TypeAtlas.Files.Access
import TypeAtlas.Files.Tree
import TypeAtlas.Graph.Build
import TypeAtlas.Graph.Row
import TypeAtlas.Graph.Table
import TypeAtlas.Index.Basic
import TypeAtlas.Json.Reader
import TypeAtlas.Json.Value
import TypeAtlas.Main
import TypeAtlas.Path
import TypeAtlas.Proofs.Analysis.Merging
import TypeAtlas.Proofs.Distinct
import TypeAtlas.Proofs.Graph.Edges
import TypeAtlas.Proofs.Graph.Emission
import TypeAtlas.Proofs.Graph.Lines
import TypeAtlas.Proofs.Graph.WellFormed
import TypeAtlas.Proofs.Index.Alignment
import TypeAtlas.Proofs.Record.Identifier
import TypeAtlas.Proofs.Text.ByteOrder
import TypeAtlas.Proofs.Text.Columns
import TypeAtlas.Record.Basic
import TypeAtlas.Record.Document
import TypeAtlas.Run.Document
import TypeAtlas.Run.Timestamp
import TypeAtlas.Scan.Glob
import TypeAtlas.Scan.IgnoreRule
import TypeAtlas.Scan.Walk
import TypeAtlas.Source.CSharp.Dialect
import TypeAtlas.Source.CSharp.Grammar
import TypeAtlas.Source.CSharp.Lexeme
import TypeAtlas.Source.Declaration
import TypeAtlas.Source.Grammar
import TypeAtlas.Source.Java.Dialect
import TypeAtlas.Source.Java.Grammar
import TypeAtlas.Source.Java.Lexeme
import TypeAtlas.Source.Language
import TypeAtlas.Source.Lexeme
import TypeAtlas.Source.Node
import TypeAtlas.Source.Reading
import TypeAtlas.Source.Token
import TypeAtlas.Text.Blank
import TypeAtlas.Text.Letter
import TypeAtlas.Text.Lowercase
import TypeAtlas.Text.Search
import TypeAtlas.Toml.Reader
import TypeAtlas.Toml.Scalar
import TypeAtlas.Toml.Value
import TypeAtlas.Proofs.Graph.RoundTrip
import TypeAtlas.Proofs.Analysis.Parts
import TypeAtlas.Proofs.Analysis.Order
import TypeAtlas.Proofs.Artifact.Places
import TypeAtlas.Proofs.Analysis.Persistence
import TypeAtlas.Proofs.Source.Nesting
import TypeAtlas.Proofs.Source.Quotation
import TypeAtlas.Proofs.Analysis.Evidence
import TypeAtlas.Proofs.Record.RoundTrip
import TypeAtlas.Proofs.Files.Parents
import TypeAtlas.Proofs.Files.Standing
import TypeAtlas.Proofs.Artifact.Interleaving
import TypeAtlas.Proofs.Analysis.Rerun
import TypeAtlas.Proofs.Artifact.Below
import TypeAtlas.Proofs.Analysis.PartEdges
import TypeAtlas.Proofs.Artifact.RunCalls
import TypeAtlas.Proofs.Config.Extensions
import TypeAtlas.Proofs.Analysis.Counts
import TypeAtlas.Proofs.Source.Building
import TypeAtlas.Proofs.Source.Regularity
import TypeAtlas.Proofs.Source.Traversal
import TypeAtlas.Proofs.Source.BaseLists
import TypeAtlas.Proofs.Source.Parameters
import TypeAtlas.Proofs.Analysis.Workers
import TypeAtlas.Proofs.Graph.LineByLine
import TypeAtlas.Proofs.Config.Discovery
import TypeAtlas.Proofs.Artifact.RunChoice
import TypeAtlas.Proofs.Scan.Exact
import TypeAtlas.Proofs.Graph.Listing
import TypeAtlas.Proofs.Record.Union
import TypeAtlas.Proofs.Record.Inheritance
import TypeAtlas.Proofs.Artifact.Separate
import TypeAtlas.Proofs.Text.Blanks
import TypeAtlas.Proofs.Source.Spelling
