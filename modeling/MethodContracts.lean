import MethodContracts.Body.Basic
import MethodContracts.Body.Builder
import MethodContracts.Body.Validity
import MethodContracts.Command.Arguments
import MethodContracts.Command.Input
import MethodContracts.Command.Report
import MethodContracts.Command.Run
import MethodContracts.Contract.Basic
import MethodContracts.Contract.Constraint
import MethodContracts.Contract.Json
import MethodContracts.Contract.Text
import MethodContracts.Diagnostic
import MethodContracts.Files.Basic
import MethodContracts.Files.Path
import MethodContracts.Files.Tree
import MethodContracts.Inference.Evaluate
import MethodContracts.Inference.Infer
import MethodContracts.Json.Basic
import MethodContracts.Json.Decode
import MethodContracts.Json.Printer
import MethodContracts.Json.Reader
import MethodContracts.Method.Basic
import MethodContracts.Method.Json
import MethodContracts.Method.OfSource
import MethodContracts.Number.Binary64
import MethodContracts.Number.Shortest
import MethodContracts.Proofs.Body.Validity
import MethodContracts.Proofs.Execution.Basic
import MethodContracts.Proofs.Execution.Inversion
import MethodContracts.Proofs.Execution.Total
import MethodContracts.Proofs.Execution.TwoValued
import MethodContracts.Proofs.Inference.Agreement
import MethodContracts.Proofs.Inference.Bounds
import MethodContracts.Proofs.Inference.Coverage
import MethodContracts.Proofs.Inference.Flattening
import MethodContracts.Proofs.Inference.Paths
import MethodContracts.Proofs.Inference.Refinement
import MethodContracts.Proofs.Inference.Soundness
import MethodContracts.Proofs.Inference.Trees
import MethodContracts.Proofs.Tree.Allocation
import MethodContracts.Proofs.Tree.Children
import MethodContracts.Proofs.Tree.Reading
import MethodContracts.Settings.Basic
import MethodContracts.Settings.Check
import MethodContracts.Settings.Decode
import MethodContracts.Settings.Load
import MethodContracts.Settings.LogFilter
import MethodContracts.Settings.Schema
import MethodContracts.Source.Annotation
import MethodContracts.Source.Cursor
import MethodContracts.Source.Declaration
import MethodContracts.Source.Expression
import MethodContracts.Source.Group
import MethodContracts.Source.Literal
import MethodContracts.Source.Parse
import MethodContracts.Source.Scan
import MethodContracts.Source.Statement
import MethodContracts.Source.Token
import MethodContracts.Source.Tree
import MethodContracts.Source.TypeRef
import MethodContracts.Span
import MethodContracts.Text.Blank
import MethodContracts.Text.Digit
import MethodContracts.Text.Letter
import MethodContracts.Text.Position
import MethodContracts.Text.Printable
import MethodContracts.Text.Ranges
import MethodContracts.Text.Reader
import MethodContracts.Text.Split
import MethodContracts.Toml.Basic
import MethodContracts.Toml.Document
import MethodContracts.Toml.Reader
import MethodContracts.Tree.Allocate
import MethodContracts.Tree.Basic
import MethodContracts.Tree.OfSource
import MethodContracts.Main
import MethodContracts.Proofs.Text.Spacing
import MethodContracts.Proofs.Inference.Totality
import MethodContracts.Proofs.Inference.Limit
import MethodContracts.Proofs.Tree.Ownership
import MethodContracts.Proofs.Tree.Size
import MethodContracts.Proofs.Tree.Source
import MethodContracts.Proofs.Tree.Wholeness
import MethodContracts.Proofs.Source.Grammar
import MethodContracts.Proofs.Source.Progress
import MethodContracts.Proofs.Source.Lookahead
import MethodContracts.Proofs.Source.Reading
import MethodContracts.Proofs.Source.Recognition
import MethodContracts.Proofs.Source.Fitting
import MethodContracts.Proofs.Source.Steps
import MethodContracts.Proofs.Source.Outline
import MethodContracts.Proofs.Source.Tiling
import MethodContracts.Proofs.Contract.Grammar
import MethodContracts.Proofs.Contract.NormalForm
import MethodContracts.Proofs.Inference.Declaration
import MethodContracts.Proofs.Tree.Spans
import MethodContracts.Proofs.Inference.Layout
import MethodContracts.Proofs.Source.ExpressionOutline
import MethodContracts.Proofs.Source.StatementOutline
import MethodContracts.Proofs.Source.DeclarationOutline
import MethodContracts.Proofs.Source.Parsing
import MethodContracts.Proofs.Source.StatementProgress
import MethodContracts.Proofs.Source.DeclarationProgress
import MethodContracts.Proofs.Source.Repetition
import MethodContracts.Proofs.Source.Relocation
import MethodContracts.Proofs.Source.TwoRuns
import MethodContracts.Proofs.Source.NameRuns
import MethodContracts.Proofs.Source.ExpressionRuns
import MethodContracts.Proofs.Source.StatementRuns
import MethodContracts.Proofs.Source.DeclarationRuns
import MethodContracts.Proofs.Source.Termination
import MethodContracts.Proofs.Source.Resuming
import MethodContracts.Proofs.Source.Insertion
import MethodContracts.Proofs.Tree.Relocation
import MethodContracts.Proofs.Inference.Relocation
import MethodContracts.Proofs.Source.Layout
import MethodContracts.Proofs.Source.Endings
import MethodContracts.Proofs.Source.Enclosing
import MethodContracts.Proofs.Source.Wrapping
import MethodContracts.Proofs.Source.Portions
import MethodContracts.Proofs.Source.MemberPortions
import MethodContracts.Proofs.Source.TypeBodies
import MethodContracts.Proofs.Inference.Frame
import MethodContracts.Proofs.Inference.Exclusion
import MethodContracts.Proofs.Inference.Separation
import MethodContracts.Proofs.Json.Decoding
import MethodContracts.Proofs.Method.Lossless
import MethodContracts.Proofs.Json.Layout
import MethodContracts.Proofs.Inference.Growth
import MethodContracts.Proofs.Inference.Outcomes
import MethodContracts.Proofs.Inference.Negation
import MethodContracts.Proofs.Inference.Branching
import MethodContracts.Proofs.Inference.Relabelling
import MethodContracts.Proofs.Method.Renaming
import MethodContracts.Proofs.Body.FirstFault
import MethodContracts.Proofs.Body.Histories
import MethodContracts.Proofs.Source.Literals
import MethodContracts.Proofs.Source.Attempts
import MethodContracts.Proofs.Source.Groups
import MethodContracts.Proofs.Execution.Control
import MethodContracts.Proofs.Command.Positions
import MethodContracts.Proofs.Tree.Chains
