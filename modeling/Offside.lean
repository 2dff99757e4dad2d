import Offside.Main
import Offside.Proofs.Lexer.Items
import Offside.Proofs.Parser.Accounting
import Offside.Proofs.Parser.Ending
import Offside.Proofs.Lexer.Placement
import Offside.Proofs.Parser.Visited
import Offside.Proofs.Parser.Abreast
import Offside.Proofs.Parser.AbreastSteps
import Offside.Proofs.Parser.AbreastRecovery
import Offside.Proofs.Parser.AbreastRules
import Offside.Proofs.Parser.AbreastWalk
import Offside.Proofs.Parser.Isolation
import Offside.Proofs.ExpressionRoundTrip
import Offside.Proofs.LayoutRoundTrip
import Offside.Proofs.Lexer.Displaced
import Offside.Proofs.Lexer.StepCases
import Offside.Proofs.Lexer.Strings
import Offside.Proofs.Lexer.Interpolations
import Offside.Proofs.Lexer.Requests
import Offside.Proofs.Lexer.Tiling
import Offside.Proofs.Scan.Cut
import Offside.Proofs.Lexer.Reread
import Offside.Proofs.Lexer.Rendering
import Offside.Proofs.Lexer.Behind
import Offside.Proofs.Parser.Border
import Offside.Proofs.Parser.TopLevel
import Offside.Proofs.Parser.Sequel
import Offside.Proofs.Concatenation
import Offside.Proofs.Lexer.SourceOrder
import Offside.Proofs.Parser.Derivation
import Offside.Proofs.Parser.Derived
import Offside.Proofs.Parser.DerivedWalk
import Offside.Proofs.Parser.SpanStarts
import Offside.Proofs.Parser.Nesting
import Offside.Proofs.Parser.OpenStrings
import Offside.Proofs.Parser.StringInterior
import Offside.Proofs.Syntax.Unhinted
import Offside.Proofs.Parser.Tandem
import Offside.Proofs.Parser.TandemRecovery
import Offside.Proofs.Parser.TandemRules
import Offside.Proofs.Parser.TandemWalk
import Offside.Proofs.Parser.TandemText
import Offside.Proofs.Parser.Foreseen
import Offside.Proofs.StatementsInStrings
import Offside.Proofs.TypeHints
import Offside.Proofs.TokensAlone
import Offside.Proofs.Parser.PhraseWalk
import Offside.Proofs.Parser.Enclosed
import Offside.Proofs.SwitchesLast
import Offside.Proofs.Parser.Leaves
import Offside.Proofs.LeavesInOrder
import Offside.Proofs.Parser.SpansWithin
import Offside.Proofs.SpansNested
import Offside.Proofs.Scan.Codeless
import Offside.Proofs.LinesWithoutCode
import Offside.Proofs.Scan.Returns
import Offside.Proofs.Scan.ReturnsLiterals
import Offside.Proofs.Scan.Writings
import Offside.Proofs.Lexer.CutStrings
import Offside.Proofs.Lexer.Returns
import Offside.Proofs.LineEndings
import Offside.Proofs.Lexer.Cancellation
import Offside.Proofs.Parser.Cursor
import Offside.Proofs.Parser.Sincere
import Offside.Proofs.Parser.SincereWalk
import Offside.Proofs.DefensiveBranches
import Offside.Proofs.Text.Quoted
import Offside.Proofs.Syntax.Sexp
import Offside.Proofs.Syntax.Bare
import Offside.Proofs.Syntax.Printed
import Offside.Proofs.Syntax.Legible
import Offside.Proofs.Syntax.ReadPrint
import Offside.Proofs.Lexer.Spelled
import Offside.Proofs.Parser.Spelled
import Offside.Proofs.PrintedTrees
import Offside.Proofs.WellFormedTrees
import Offside.Proofs.Lexer.OneLine
import Offside.Proofs.EscapedLiterals
import Offside.Proofs.IntegerLiterals
import Offside.Proofs.Syntax.Grouping
import Offside.Proofs.Parser.Climbing
import Offside.Proofs.OperatorChains
import Offside.Proofs.Parser.Rounds
import Offside.Proofs.StatementProgress
import Offside.Proofs.IndentationLevels
import Offside.Proofs.LayoutTokens
import Offside.Proofs.LastLine
import Offside.Proofs.NodeCounts
import Offside.Proofs.Scan.Pieces
import Offside.Proofs.LiteralPieces
import Offside.Proofs.MarkedExcerpts
import Offside.Proofs.Lexer.Signs
import Offside.Proofs.OperandEnds
import Offside.Proofs.IndentationWidths
