import Lox.Command.Args
import Lox.Text.Escaped
/-!
The log that `--log` starts in `app.log`. The file is created empty when the program starts, and
every record is written to it at once, one line each: where it was written from and the message.
By the time a subcommand opens its input the log holds three records: the logger's start, the
command line as the program read it, and the name of the file about to be read. A program that
reads `app.log` itself therefore reads these lines (`Invocation.logAtRead`).
-/
namespace Lox.Command

/-- The name of the log file, in the working directory. -/
def logFile : String := "app.log"

/-- One record of the log: its origin, a dash, and the message. -/
def logRecord (line : Nat) (message : String) : String :=
  "[rox:" ++ toString line ++ "] - " ++ message ++ "\n"

/-- A flag as the log writes it. -/
def flagText (b : Bool) : String := if b then "true" else "false"

/-- The command line as the log writes it: the subcommand with its file argument and its flag,
then whether logging is on. -/
def Invocation.describe (i : Invocation) : String :=
  let file := match i.file with
    | some f => "Some(" ++ Escaped.quote f ++ ")"
    | none => "None"
  let fields (flag : Option String) : String :=
    " \x7b filename: " ++ file ++
      (match flag with | some f => ", " ++ f ++ ": " ++ flagText i.flag | none => "") ++ " \x7d"
  let command := match i.sub with
    | .tokenize => "Tokenize" ++ fields (some "json")
    | .parse => "Parse" ++ fields (some "rpn")
    | .evaluate => "Evaluate" ++ fields none
    | .run => "Run" ++ fields none
    | .repl => "Repl"
  "Cli \x7b commands: Some(" ++ command ++ "), log: " ++ flagText i.log ++ " \x7d"

/-- The records written as the program starts: the logger's, then the command line. -/
def Invocation.logAtStart (i : Invocation) : String :=
  logRecord 99 "Logger initialized, writing to app.log" ++
    logRecord 207 ("CLI arguments: " ++ i.describe)

/-- The record written just before the input file is opened. -/
def logReading (path : String) : String :=
  logRecord 61 ("Reading file: " ++ Escaped.quote path)

/-- The whole log at the moment the input file is opened. -/
def Invocation.logAtRead (i : Invocation) (path : String) : String :=
  i.logAtStart ++ logReading path

end Lox.Command
