import Lox.Command.Args
import Lox.Command.Path
import Lox.Command.Log
import Lox.Text.Escaped
import Lox.Text.Backspace
import Lox.Session
import Lox.Syntax.Printer
/-!
Running the `rox` command line in a world of named files and a standard input. Each subcommand
reads its file, reports what it cannot read the way the program's top level does (`Error:`, the
context, then `Caused by:` and the system's reason, with exit status 1), and otherwise writes its
answers to standard output, its diagnostics to standard error, and exits with the largest status
among them. The prompt reads standard input line by line into one session that echoes values.
-/
namespace Lox.Command

/-- The files a command can open, by name, the bytes on its standard input, and what the clock
reads, in seconds. -/
structure World where
  files : List (String × ByteArray)
  stdin : ByteArray
  clock : Float

/-- What a command wrote on each stream, its exit status, and whether it started its log. -/
structure Outcome where
  stdout : String
  stderr : String
  exitCode : Nat
  logWritten : Bool

/-- Why a file could not be read as text. -/
inductive ReadFailure where
  /-- It could not be opened; the system's reason. -/
  | cannotOpen (reason : String)
  /-- It was opened but could not be read as text; the reason. -/
  | cannotRead (reason : String)

/-- The report of a file that could not be read. -/
def ReadFailure.report (name : String) : ReadFailure → String
  | .cannotOpen r =>
    "Error: Failed to open file " ++ Escaped.quote name ++ "\n\nCaused by:\n    " ++ r ++ "\n"
  | .cannotRead r =>
    "Error: Failed to read file " ++ Escaped.quote name ++ "\n\nCaused by:\n    " ++ r ++ "\n"

/-- The world after a file of the working directory is written with this text. -/
def World.write (w : World) (name text : String) : World :=
  { w with files := (name, text.toUTF8) :: w.files.filter (·.1 != name) }

/-- Whether the working directory holds a file of this name. -/
def World.holds (w : World) (name : String) : Bool :=
  w.files.any (·.1 == name)

/-- Reads a file of the world as UTF-8 text, by a path walked as `Path.locate` does: a path that
leads nowhere cannot be opened, and a directory opens but cannot be read. -/
def World.read (w : World) (path : String) : Except ReadFailure String :=
  match Path.locate w.holds path with
  | .error e => .error (.cannotOpen e.message)
  | .ok .workDir | .ok .otherDir => .error (.cannotRead OsError.isDirectory.message)
  | .ok (.file name) =>
    match w.files.lookup name with
    | none => .error (.cannotOpen OsError.notFound.message)
    | some bytes =>
      match Utf8.decode bytes with
      | .ok text => .ok text
      | .error _ => .error (.cannotRead "stream did not contain valid UTF-8")

/-- Lines of diagnostics, one per error. -/
def diagnosticLines (ds : List Diagnostic) : String :=
  String.join (ds.map (·.message ++ "\n"))

/-- Lists the tokens of a source: each token on standard output, in its text or JSON form, each
lexing error on standard error; status 65 if any error occurred. -/
def tokenize (source : String) (json : Bool) : Outcome :=
  let items := Token.scan source
  let out := String.join (items.filterMap fun i => match i with
    | .ok t => some ((if json then t.json else t.text) ++ "\n")
    | .error _ => none)
  let errs := items.filterMap fun i => match i with
    | .ok _ => none
    | .error e => some (e.message ++ "\n")
  ⟨out, String.join errs, if errs.isEmpty then 0 else 65, false⟩

/-- Parses a source as one expression and prints it in prefix form, or postfix with `rpn`. -/
def parse (source : String) (rpn : Bool) : Outcome :=
  let (tokens, lexErrors) := Token.scanAll source
  if !lexErrors.isEmpty then
    ⟨"", String.join (lexErrors.map (·.message ++ "\n")), 65, false⟩
  else
    match Expr.parse tokens with
    | .ok e => ⟨(if rpn then e.toPostfix else e.toPrefix) ++ "\n", "", 0, false⟩
    | .error err => ⟨"", err.message ++ "\n", 65, false⟩

/-- A fresh session whose clock reads as the world's. -/
def World.session (w : World) (echo : Bool) : Session :=
  let s := Session.new echo
  { s with machine := { s.machine with clock := w.clock } }

/-- Evaluates a source as one expression in a fresh session and prints its value. -/
def evaluate (s : Session) (source : String) : Outcome :=
  let (_, ev) := s.evaluate source
  match ev.result with
  | .ok v => ⟨ev.output ++ v.display ++ "\n", "", 0, false⟩
  | .error ds => ⟨ev.output, diagnosticLines ds, exitCodeOf ds, false⟩

/-- Runs a source as one program in a fresh session. -/
def run (s : Session) (source : String) : Outcome :=
  let (_, r) := s.run source
  ⟨r.output, diagnosticLines r.errors, r.exitCode, false⟩

/-- One line at the prompt: the session after it, and what it wrote on each stream. -/
def replStep (s : Session) (line : String) : Session × String × String :=
  let (s', r) := s.run line
  (s', r.output, diagnosticLines r.errors)

/-- The report of input that is not UTF-8 at the prompt. -/
def unreadableLine : String :=
  "Error: Failed to read line\n\nCaused by:\n    0: stream did not contain valid UTF-8\n" ++
    "    1: stream did not contain valid UTF-8\n"

/-- The lines of standard input, each with its newline byte except perhaps the last. -/
def splitLines (bytes : List UInt8) : List (List UInt8) :=
  let (lines, current) := bytes.foldl
    (fun (acc : List (List UInt8) × List UInt8) b =>
      if b == 10 then ((b :: acc.2).reverse :: acc.1, []) else (acc.1, b :: acc.2))
    ([], [])
  (if current.isEmpty then lines else current.reverse :: lines).reverse

/-- A line read at the prompt, without its newline and a carriage return before it. -/
def lineText (text : String) : String :=
  let t := if text.endsWith "\n" then (text.dropEnd 1).toString else text
  if text.endsWith "\n" && t.endsWith "\r" then (t.dropEnd 1).toString else t

/-- The report of a line whose backspaces would cut a character in two: the line editor stops
the program with status 101. -/
def editorStopped : String :=
  "\nthread 'main' panicked at library/alloc/src/string.rs:1432:13:\n" ++
    "assertion failed: self.is_char_boundary(new_len)\n" ++
    "note: run with \x60RUST_BACKTRACE=1\x60 environment variable to display a backtrace\n"

/-- The prompt over the lines of standard input: each line, its backspaces applied, runs as one
unit of an echoing session, a failing line reports and the loop goes on; input that is not UTF-8
ends it with status 1. -/
def repl (s : Session) (stdin : ByteArray) : Outcome :=
  let rec go (s : Session) (out err : String) : List (List UInt8) → Outcome
    | [] => ⟨out, err, 0, false⟩
    | l :: rest =>
      match Utf8.decode (ByteArray.mk l.toArray) with
      | .error _ => ⟨out, err ++ unreadableLine, 1, false⟩
      | .ok text =>
        match Backspace.apply (lineText text) with
        | none => ⟨out, err ++ editorStopped, 101, false⟩
        | some line =>
          let (s', o, e) := replStep s line
          go s' (out ++ o) (err ++ e) rest
  go s "" "" (splitLines stdin.toList)

/-- Carries out an invocation in a world. -/
def Invocation.perform (w : World) (i : Invocation) : Outcome :=
  let answer : Outcome :=
    match i.sub with
    | .repl => repl (w.session true) w.stdin
    | sub =>
      match i.file with
      | none => ⟨"No input filepath was provided. Exiting...\n", "", 0, false⟩
      | some name =>
        let w := if i.log then w.write logFile (i.logAtRead name) else w
        match w.read name with
        | .error f => ⟨"", f.report name, 1, false⟩
        | .ok source =>
          match sub with
          | .tokenize => tokenize source i.flag
          | .parse => parse source i.flag
          | .evaluate => evaluate (w.session false) source
          | _ => run (w.session false) source
  { answer with logWritten := i.log }

/-- Runs the command line with these arguments, the program's name left out. -/
def Outcome.ofArgs (args : List String) (w : World) : Outcome :=
  match Parsed.ofArgs args with
  | .info text => ⟨text, "", 0, false⟩
  | .usageError text => ⟨"", text, 2, false⟩
  | .invoke i => i.perform w

end Lox.Command
