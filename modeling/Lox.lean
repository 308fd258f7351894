import Lox.Decimal.Shortest
import Lox.Decimal.Notation
import Lox.Text.Json
import Lox.Text.CodeRanges
import Lox.Text.Printable
import Lox.Text.GraphemeExtend
import Lox.Text.Escaped
import Lox.Text.GraphemeBreak
import Lox.Text.Grapheme
import Lox.Text.Backspace
import Lox.Token
import Lox.Token.Lexer
import Lox.Token.Scanner
import Lox.Syntax
import Lox.Syntax.Parser
import Lox.Syntax.Printer
import Lox.Scope
import Lox.Value
import Lox.Store
import Lox.Eval
import Lox.Text.Utf8
import Lox.Diagnostic
import Lox.Interpreter
import Lox.Session
import Lox.Command.Args
import Lox.Command.Path
import Lox.Command.Log
import Lox.Command.Run
import Lox.Main
import Lox.Proofs.Grammar
import Lox.Proofs.ParserSteps
import Lox.Proofs.ParserSound
import Lox.Proofs.ParserComplete
import Lox.Proofs.ScopeRules
import Lox.Proofs.ProgramShape
import Lox.Proofs.FrameChain
import Lox.Proofs.ScopeAgreement
import Lox.Proofs.CurrentFrame
import Lox.Proofs.Renaming
import Lox.Proofs.ScanAutomaton
import Lox.Proofs.TopLevel
import Lox.Proofs.KeywordFrames
import Lox.Proofs.AnyFrame
import Lox.Proofs.SessionFailures
import Lox.Proofs.ReferenceSteps
import Lox.Identities
import Lox.Proofs.FreshIdentities
import Lox.Proofs.Dispatch
import Lox.Proofs.LineMaps
import Lox.Proofs.Renumbering
import Lox.Proofs.GrammarTransfer
import Lox.Proofs.Returns
import Lox.Proofs.ScanLines
import Lox.Proofs.JoinedUnits
import Lox.Proofs.RenamingScopes
import Lox.Proofs.Unwinding
import Lox.Proofs.Initializers
import Lox.Proofs.ScanBounds
import Lox.Proofs.ByteScan
import Lox.Proofs.ScannerSteps
import Lox.Proofs.Confinement
import Lox.Proofs.RenamingRuns
import Lox.Proofs.ErrorOrder
import Lox.Proofs.ParserFuel
import Lox.Proofs.NumberText
import Lox.Proofs.ScannedTokens
import Lox.Proofs.PrintedForms
import Lox.Proofs.NearestBinding
