import Lox.Diagnostic
import Lox.Interpreter
/-!
Sessions: one interpreter kept alive across units of source, as at a prompt. A unit is lexed,
parsed and checked as a whole, and runs only if all of that succeeds, in the frame the session's
machine has current; a runtime fault stops it and keeps what it printed and defined before. With
`echo` set, each top-level expression statement prints its value.
-/
namespace Lox

/-- The statements of a source text, or its lexing and parsing faults, merged and ordered by line
with lexing faults first within a line; when only lexing fails, its faults alone. -/
def Stmt.ofSource (source : String) : Except (List Diagnostic) (List Stmt) :=
  let (tokens, lexErrors) := Token.scanAll source
  match Stmt.parseProgram tokens with
  | .ok stmts => if lexErrors.isEmpty then .ok stmts else .error (lexErrors.map .lex)
  | .error parseErrors =>
    .error ((lexErrors.map Diagnostic.lex ++ parseErrors.map Diagnostic.parse).mergeSort
      fun a b => a.line.getD 0 ≤ b.line.getD 0)

/-- An interpreter kept across units. -/
structure Session where
  machine : Machine
  /-- Top-level expression statements print their values. -/
  echo : Bool
  /-- The fuel each unit starts with. -/
  fuel : Nat

/-- What running a unit printed and the errors it reported. -/
structure Report where
  output : String
  errors : List Diagnostic

/-- The exit status of a unit's report. -/
def Report.exitCode (r : Report) : Nat := exitCodeOf r.errors

/-- What evaluating a lone expression printed, and its value or errors. -/
structure Evaluation where
  output : String
  result : Except (List Diagnostic) Value

namespace Session

/-- Fuel that no program in practice exhausts. -/
def defaultFuel : Nat := Nat.pow 2 62

/-- A fresh session: the globals hold only `clock`. -/
def new (echo : Bool) : Session := ⟨Machine.new, echo, defaultFuel⟩

/-- Runs a parsed unit: its scope errors if it has any, and otherwise its output and the runtime
fault that stopped it, if one did. -/
def runStmts (s : Session) (stmts : List Stmt) : Session × Report :=
  match Stmt.resolveScopes stmts with
  | .error es => (s, ⟨"", es.map .scope⟩)
  | .ok stmts =>
    let (r, m) := (Interp.interpret s.fuel s.echo stmts).run.run { s.machine with output := "" }
    let errors := match r with
      | .ok _ => []
      | .error stop => [Diagnostic.ofStop stop]
    ({ s with machine := m }, ⟨m.output, errors⟩)

/-- Runs a unit: its static errors if it has any, and otherwise its output and the runtime fault
that stopped it, if one did. -/
def run (s : Session) (source : String) : Session × Report :=
  match Stmt.ofSource source with
  | .error ds => (s, ⟨"", ds⟩)
  | .ok stmts => s.runStmts stmts

/-- Evaluates one expression at the top level: all its lexing faults, or its parse fault, or its
scope faults, or its value or the runtime fault that stopped it. -/
def evaluate (s : Session) (source : String) : Session × Evaluation :=
  let (tokens, lexErrors) := Token.scanAll source
  if !lexErrors.isEmpty then (s, ⟨"", .error (lexErrors.map .lex)⟩)
  else
    match Expr.parse tokens with
    | .error e => (s, ⟨"", .error [.parse e]⟩)
    | .ok e =>
      match Expr.resolveScopes e with
      | .error es => (s, ⟨"", .error (es.map .scope)⟩)
      | .ok e =>
        let (r, m) := (Interp.evaluate s.fuel e).run.run { s.machine with output := "" }
        let result := match r with
          | .ok v => .ok v
          | .error stop => .error [Diagnostic.ofStop stop]
        ({ s with machine := m }, ⟨m.output, result⟩)

/-- Runs the contents of a file as one unit; `none` stands for a path where no file is. Bytes
that are not UTF-8 are reported and nothing runs. -/
def runFile (s : Session) (contents : Option ByteArray) : Session × Report :=
  match contents with
  | none => (s, ⟨"", [.io "No such file or directory (os error 2)"]⟩)
  | some bytes =>
    match Utf8.decode bytes with
    | .error e => (s, ⟨"", [.utf8 e]⟩)
    | .ok source => s.run source

end Session

end Lox
