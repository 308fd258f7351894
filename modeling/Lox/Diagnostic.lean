import Lox.Token.Lexer
import Lox.Syntax.Parser
import Lox.Scope
import Lox.Eval
import Lox.Text.Utf8
/-!
Everything a unit can report, with its text, its line and its exit status: 65 for faults found
before running (lexing, parsing, scopes), 70 for faults while running, 74 for a file that cannot
be read.
-/
namespace Lox

/-- A reported error. -/
inductive Diagnostic where
  | lex (e : LexError)
  | parse (e : ParseError)
  | scope (e : ScopeError)
  | runtime (e : RuntimeError)
  /-- The run used up its fuel. -/
  | exhausted
  /-- The file could not be read; the system's message. -/
  | io (message : String)
  | utf8 (e : Utf8Error)

namespace Diagnostic

/-- The text of a diagnostic. -/
def message : Diagnostic → String
  | .lex e => e.message
  | .parse e => e.message
  | .scope e => e.message
  | .runtime e => e.message
  | .exhausted => "Evaluation ran out of fuel."
  | .io m => m
  | .utf8 e => e.message

/-- The source line a diagnostic points at, when it has one. -/
def line : Diagnostic → Option Nat
  | .lex e => some e.line
  | .parse e => some e.token.line
  | .scope e => some e.token.line
  | .runtime e => some e.token.line
  | _ => none

/-- The exit status a diagnostic calls for. -/
def exitCode : Diagnostic → Nat
  | .lex _ | .parse _ | .scope _ => 65
  | .runtime _ | .exhausted => 70
  | .io _ | .utf8 _ => 74

/-- The diagnostic for a stopped run. -/
def ofStop : Stop → Diagnostic
  | .fault e => .runtime e
  | .exhausted => .exhausted

end Diagnostic

/-- The exit status of a list of diagnostics: the largest code, `0` for none. -/
def exitCodeOf (ds : List Diagnostic) : Nat :=
  ds.foldl (fun acc d => max acc d.exitCode) 0

end Lox
