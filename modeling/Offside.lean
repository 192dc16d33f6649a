import Offside.Command
import Offside.CommandLine.Invocation
import Offside.CommandLine.Switch
import Offside.CommandLine.Words
import Offside.ContextFile
import Offside.ControlBlock
import Offside.Data
import Offside.Data.Shown
import Offside.Data.Truth
import Offside.Data.TypeTag
import Offside.Decimal.Digits
import Offside.Decimal.Shortest
import Offside.Disk
import Offside.Doctype
import Offside.Editor.Diagnostic
import Offside.Editor.Position
import Offside.Editor.SemanticToken
import Offside.Editor.Session
import Offside.Engine
import Offside.Error
import Offside.Expr
import Offside.Expr.Check
import Offside.Expr.Eval
import Offside.Expr.Grammar
import Offside.Expr.Number
import Offside.Expr.Operator
import Offside.Expr.Plan
import Offside.Expr.Token
import Offside.Failure
import Offside.Filter
import Offside.Filter.Suggest
import Offside.Fragment
import Offside.Job
import Offside.Location
import Offside.Main
import Offside.Path
import Offside.Program
import Offside.Program.Interpolation
import Offside.Program.Layout
import Offside.Program.Problem
import Offside.Program.Tag
import Offside.Render
import Offside.Render.Evaluator
import Offside.Rendering
import Offside.Table
import Offside.Text.Basic
import Offside.Text.CaseFold
import Offside.Text.Escape
import Offside.Text.Letter
import Offside.Text.Printable
import Offside.Text.Quoted
import Offside.Text.Span
import Offside.Text.Utf8
import Offside.Token
import Offside.Token.Braces
import Offside.Token.Lex
import Offside.Token.Line
import Offside.Uri
import Offside.Uri.Address
import Offside.Watcher
import Offside.Workspace
import Offside.Yaml.Document
import Offside.Yaml.Item
import Offside.Yaml.Node
import Offside.Yaml.Quoted
import Offside.Yaml.Scalar
import Offside.Yaml.Scan
import Offside.Yaml.Stretch
import Offside.Yaml.Token
import Offside.Proofs.Nesting
import Offside.Proofs.Tree
import Offside.Proofs.LayoutStep
import Offside.Proofs.ScopeInvariant
import Offside.Proofs.TreeRendering
import Offside.Proofs.LineGrammar
import Offside.Proofs.LineReading
import Offside.Proofs.Sheet
import Offside.Proofs.SourceReading
import Offside.Proofs.RawBlocks
import Offside.Proofs.Indentation
import Offside.Proofs.Coverage
import Offside.Proofs.Positions
import Offside.Proofs.Escaping
import Offside.Proofs.Delimiters
import Offside.Proofs.Checking
import Offside.Proofs.TypeTags
import Offside.Proofs.Sinks
import Offside.Proofs.PrettyOutput
import Offside.Proofs.WorkspaceRuns
import Offside.Proofs.FilterUses
import Offside.Proofs.FilterLookups
import Offside.Proofs.Capturing
import Offside.Proofs.SemanticTokens
import Offside.Proofs.EditorPlaces
import Offside.Proofs.DiskWrites
import Offside.Proofs.Delivery
import Offside.Proofs.DepthLimit
import Offside.Proofs.JoinedTags
import Offside.Proofs.FilterBlocks
import Offside.Proofs.EditorHistory
import Offside.Proofs.Interpolating
import Offside.Proofs.TagAttributes
import Offside.Proofs.LayoutContext
import Offside.Proofs.LinesBelow
import Offside.Proofs.CodeLines
import Offside.Proofs.TagLines
import Offside.Proofs.CodePlaces
import Offside.Proofs.FilterPlaces
import Offside.Proofs.ConditionalChains
import Offside.Proofs.Execution
import Offside.Proofs.OrphanElse
import Offside.Proofs.KeyOrder
import Offside.Proofs.Loops
import Offside.Proofs.LineInstructions
import Offside.Proofs.OneLiners
import Offside.Proofs.UnbrokenText
import Offside.Proofs.PrettyLines
import Offside.Proofs.BraceMatching
import Offside.Proofs.CharacterData
import Offside.Proofs.Separators
import Offside.Proofs.Relocation
import Offside.Proofs.BlankLines
import Offside.Proofs.Dedenting
import Offside.Proofs.LineBreaks
import Offside.Proofs.WatchCalls
