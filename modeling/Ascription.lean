import Ascription.Builtin
import Ascription.CommandLine
import Ascription.CommandLine.Options
import Ascription.CommandLine.Session
import Ascription.CommandLine.Usage
import Ascription.Declarations
import Ascription.Diagnostic
import Ascription.Diagnostic.Code
import Ascription.Diagnostic.OfError
import Ascription.Diagnostic.Report
import Ascription.Diagnostic.Suggestion
import Ascription.Diagnostic.Terminal
import Ascription.Entries
import Ascription.Eval
import Ascription.Eval.Builtin
import Ascription.Eval.Run
import Ascription.Expr
import Ascription.Expr.Text
import Ascription.Json
import Ascription.Json.Printer
import Ascription.Json.Reader
import Ascription.Lowering
import Ascription.Lowering.Rust
import Ascription.Main
import Ascription.Number.Binary64
import Ascription.Number.Checked
import Ascription.Number.Notation
import Ascription.Number.Shortest
import Ascription.ParseError
import Ascription.Parser
import Ascription.Parser.Cursor
import Ascription.Parser.Expr
import Ascription.Parser.Type
import Ascription.Proofs.CommandLine.Options
import Ascription.Proofs.Declarations
import Ascription.Proofs.Diagnostic.Codes
import Ascription.Proofs.Diagnostic.EditDistance
import Ascription.Proofs.Diagnostic.EditDistance.Metric
import Ascription.Proofs.Diagnostic.Marks
import Ascription.Proofs.Diagnostic.Suggestion
import Ascription.Proofs.Entries
import Ascription.Proofs.Eval.Annotations
import Ascription.Proofs.Eval.Collections
import Ascription.Proofs.Eval.Ends
import Ascription.Proofs.Eval.Expected
import Ascription.Proofs.Eval.Inferred
import Ascription.Proofs.Eval.Like
import Ascription.Proofs.Eval.Located
import Ascription.Proofs.Eval.Operators
import Ascription.Proofs.Eval.Parameters
import Ascription.Proofs.Eval.Related
import Ascription.Proofs.Eval.Related.Builtin
import Ascription.Proofs.Eval.Run
import Ascription.Proofs.Eval.Slices
import Ascription.Proofs.Eval.Spans
import Ascription.Proofs.Eval.Terminates
import Ascription.Proofs.Eval.TypeSound
import Ascription.Proofs.Eval.Unique
import Ascription.Proofs.Eval.Visible
import Ascription.Proofs.Except
import Ascription.Proofs.Expr.Decidable
import Ascription.Proofs.Expr.Placed
import Ascription.Proofs.Expr.ReadsBack
import Ascription.Proofs.Expr.Spans
import Ascription.Proofs.Expr.StaticType
import Ascription.Proofs.Expr.Text
import Ascription.Proofs.Expr.WellTyped
import Ascription.Proofs.Expr.Within
import Ascription.Proofs.Json
import Ascription.Proofs.Lowering
import Ascription.Proofs.Lowering.Grammar
import Ascription.Proofs.Lowering.Rust
import Ascription.Proofs.Lowering.Unique
import Ascription.Proofs.Number.Digits
import Ascription.Proofs.Number.Integer
import Ascription.Proofs.Number.Notation
import Ascription.Proofs.Number.Plain
import Ascription.Proofs.Number.Rounding
import Ascription.Proofs.Number.Shortest
import Ascription.Proofs.Parser.Complete
import Ascription.Proofs.Parser.Complete.Expr
import Ascription.Proofs.Parser.Cursor
import Ascription.Proofs.Parser.Declared
import Ascription.Proofs.Parser.Grows
import Ascription.Proofs.Parser.Located
import Ascription.Proofs.Parser.Placed
import Ascription.Proofs.Parser.Progress
import Ascription.Proofs.Parser.RoundTrip
import Ascription.Proofs.Parser.Rules
import Ascription.Proofs.Parser.Sound
import Ascription.Proofs.Parser.Sound.Expr
import Ascription.Proofs.Parser.Takes
import Ascription.Proofs.Parser.Takes.Expr
import Ascription.Proofs.Parser.Takes.Type
import Ascription.Proofs.Parser.Traced
import Ascription.Proofs.Parser.Traced.Grammar
import Ascription.Proofs.Parser.Traced.Spends
import Ascription.Proofs.Parser.TwoPass
import Ascription.Proofs.Parser.Type
import Ascription.Proofs.Parser.TypeSentence
import Ascription.Proofs.Phrase
import Ascription.Proofs.Phrase.Elaborate
import Ascription.Proofs.Phrase.Elaborate.Like
import Ascription.Proofs.Phrase.Grammar
import Ascription.Proofs.Phrase.Grammar.Like
import Ascription.Proofs.Phrase.Like
import Ascription.Proofs.Phrase.Placed
import Ascription.Proofs.Phrase.Reads
import Ascription.Proofs.Phrase.Ruled
import Ascription.Proofs.Phrase.Shorter
import Ascription.Proofs.Phrase.Unique
import Ascription.Proofs.Registry
import Ascription.Proofs.Registry.Grows
import Ascription.Proofs.Rule
import Ascription.Proofs.Scope
import Ascription.Proofs.Source.Bytes
import Ascription.Proofs.Source.LineMap
import Ascription.Proofs.Source.Lines
import Ascription.Proofs.Source.Span
import Ascription.Proofs.Text.Quoted
import Ascription.Proofs.Text.Renders
import Ascription.Proofs.Token.Layout
import Ascription.Proofs.Token.Lexes
import Ascription.Proofs.Token.Literals
import Ascription.Proofs.Token.Patterns
import Ascription.Proofs.Token.Segments
import Ascription.Proofs.Token.Spans
import Ascription.Proofs.Token.Words
import Ascription.Proofs.Ty.Equal
import Ascription.Proofs.Ty.Expand
import Ascription.Proofs.Ty.Mentions
import Ascription.Proofs.Ty.Printable
import Ascription.Proofs.Ty.ReadsBack
import Ascription.Proofs.Ty.Subtype
import Ascription.Proofs.Ty.Text
import Ascription.Proofs.Ty.Top
import Ascription.Proofs.Ty.Transparent
import Ascription.Proofs.Value.Equal
import Ascription.Proofs.Value.EraseSpans
import Ascription.Proofs.Value.Expand
import Ascription.Proofs.Value.FirstMisfit
import Ascription.Proofs.Value.Fits
import Ascription.Proofs.Value.Infer
import Ascription.Proofs.Value.Json
import Ascription.Proofs.Value.MapCode
import Ascription.Proofs.Value.MapKeys
import Ascription.Proofs.Value.Related
import Ascription.Proofs.Value.Subtype
import Ascription.Proofs.Value.Transparent
import Ascription.Proofs.Value.Untyped
import Ascription.Registry
import Ascription.Rule
import Ascription.RuntimeError
import Ascription.Scope
import Ascription.Source.LineMap
import Ascription.Source.Span
import Ascription.SyntaxError
import Ascription.Text.Invisible
import Ascription.Text.Quoted
import Ascription.Text.Split
import Ascription.Text.Style
import Ascription.Token
import Ascription.Token.Lexer
import Ascription.Ty
import Ascription.TypeError
import Ascription.TypeExpr
import Ascription.Value
import Ascription.Value.Check
import Ascription.Value.Json
