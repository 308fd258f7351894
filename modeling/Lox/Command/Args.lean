/-!
The command line of the `rox` interpreter: its subcommands and flags, read from the argument list,
and the texts it answers with when asked for help or given arguments it cannot use. Those texts
follow the usual layout of help screens: a summary, a usage line, then aligned columns of
commands, arguments and options. Misspelled subcommands and flags get a suggestion when a known
name is close enough (Jaro similarity above 0.7).
-/
namespace Lox.Command

/-- The subcommands that do work. -/
inductive Sub where
  | tokenize
  | parse
  | evaluate
  | run
  | repl
  deriving DecidableEq, Repr

namespace Sub

/-- Every subcommand, in the order help lists them. -/
def all : List Sub := [.tokenize, .parse, .evaluate, .run, .repl]

/-- The word that selects a subcommand. -/
def name : Sub → String
  | .tokenize => "tokenize"
  | .parse => "parse"
  | .evaluate => "evaluate"
  | .run => "run"
  | .repl => "repl"

/-- The one-line description of a subcommand. -/
def about : Sub → String
  | .tokenize => "Tokenizes input from a file, printing each token"
  | .parse => "Parses input from a file as a single expression and prints its AST"
  | .evaluate => "Evaluates input from a file as a single expression and prints the result"
  | .run => "Runs input from a file as a Lox program"
  | .repl => "Starts an interactive prompt (the default with no subcommand)"

/-- The flag a subcommand has of its own, and its description. -/
def flag? : Sub → Option (String × String)
  | .tokenize => some ("json", "Print one JSON object per token instead of the text form")
  | .parse => some ("rpn", "Print the tree in reverse Polish notation")
  | _ => none

/-- The subcommand reads a file named by an optional argument. -/
def takesFile : Sub → Bool
  | .repl => false
  | _ => true

/-- The subcommand a word selects. -/
def ofName? (w : String) : Option Sub := all.find? (·.name == w)

end Sub

/-- What the command line asks for: a subcommand, its file, its own flag, and logging. -/
structure Invocation where
  sub : Sub
  file : Option String
  flag : Bool
  log : Bool
  deriving DecidableEq, Repr

/-- The reading of an argument list. -/
inductive Parsed where
  /-- Run a subcommand. -/
  | invoke (i : Invocation)
  /-- Print help or the version on standard output and succeed. -/
  | info (text : String)
  /-- Print a usage error on standard error and exit with status 2. -/
  | usageError (text : String)
  deriving DecidableEq, Repr

/-- The version line. -/
def versionText : String := "rox 0.1.0\n"

/-- The description of `--log`. -/
def logHelp : String := "Enable logging to app.log"

/-- Rows of two columns, indented by two spaces, the second column aligned two spaces after the
widest entry of the first. -/
def columns (rows : List (String × String)) : String :=
  let width := rows.foldl (fun w r => max w r.1.length) 0
  String.join (rows.map fun (l, r) =>
    "  " ++ l ++ String.ofList (List.replicate (width - l.length + 2) ' ') ++ r ++ "\n")

/-- The usage line of the whole program. -/
def rootUsage : String := "rox [OPTIONS] [COMMAND]"

/-- The usage line of a subcommand. -/
def Sub.usage (s : Sub) : String :=
  "rox " ++ s.name ++ " [OPTIONS]" ++ (if s.takesFile then " [FILENAME]" else "")

/-- The description of the `help` subcommand. -/
def helpAbout : String := "Print this message or the help of the given subcommand(s)"

/-- The help screen of the whole program. -/
def rootHelp : String :=
  "Lox language interpreter\n\nUsage: " ++ rootUsage ++ "\n\nCommands:\n" ++
    columns (Sub.all.map (fun s => (s.name, s.about)) ++ [("help", helpAbout)]) ++
    "\nOptions:\n" ++
    columns [("    --log", logHelp), ("-h, --help", "Print help"), ("-V, --version", "Print version")]

/-- The help screen of a subcommand. -/
def Sub.help (s : Sub) : String :=
  let own := match s.flag? with
    | some (f, h) => [("    --" ++ f, h)]
    | none => []
  s.about ++ "\n\nUsage: " ++ s.usage ++ "\n\n" ++
    (if s.takesFile then "Arguments:\n" ++ columns [("[FILENAME]", "")] ++ "\n" else "") ++
    "Options:\n" ++ columns (own ++ [("    --log", logHelp), ("-h, --help", "Print help")])

/-- The help screen of the `help` subcommand. -/
def helpHelp : String :=
  helpAbout ++ "\n\nUsage: rox help [COMMAND]...\n\nArguments:\n" ++
    columns [("[COMMAND]...", "Print help for the subcommand(s)")]

/-- A usage error: the message, the tips under it, the usage line, and where to learn more. -/
def errorText (message : String) (tips : List String) (usage : String) : String :=
  "error: " ++ message ++
    (if tips.isEmpty then "" else "\n" ++ String.join (tips.map ("\n  tip: " ++ ·))) ++
    "\n\nUsage: " ++ usage ++ "\n\nFor more information, try '--help'.\n"

/-- A usage error of the `help` subcommand's own arguments: it has no help of its own to point to. -/
def helpErrorText (message : String) : String :=
  "error: " ++ message ++ "\n\nUsage: rox help [COMMAND]...\n"

/-- The error of an empty file argument, which names no file. -/
def emptyFileText : String :=
  "error: a value is required for '[FILENAME]' but none was supplied\n\n" ++
    "For more information, try '--help'.\n"

/-- The Jaro similarity of two words: the share of characters that match within half the longer
length, less half the matched pairs out of order, averaged over both words and the matches. -/
def jaro (a b : List Char) : Float :=
  let la := a.length
  let lb := b.length
  if la == 0 && lb == 0 then 1.0
  else if la == 0 || lb == 0 then 0.0
  else
    let range := max la lb / 2 - 1
    let bs := b.toArray
    let step (st : Array Bool × Array Bool) (ic : Nat × Char) : Array Bool × Array Bool :=
      let (aFlags, bFlags) := st
      let (i, c) := ic
      let lo := i - range
      let hi := min lb (i + range + 1)
      match (List.range' lo (hi - lo)).find? (fun j => bs[j]? == some c && bFlags[j]? == some false) with
      | some j => (aFlags.set! i true, bFlags.set! j true)
      | none => (aFlags, bFlags)
    let (aFlags, bFlags) := ((List.range la).zip a).foldl step
      (Array.replicate la false, Array.replicate lb false)
    let aMatched := (a.zip aFlags.toList).filterMap fun (c, f) => if f then some c else none
    let bMatched := (b.zip bFlags.toList).filterMap fun (c, f) => if f then some c else none
    let m := aMatched.length
    let t := ((aMatched.zip bMatched).filter fun (x, y) => x != y).length / 2
    if m == 0 then 0.0
    else
      (m.toFloat / la.toFloat + m.toFloat / lb.toFloat + (m - t).toFloat / m.toFloat) / 3.0

/-- The known words close to a word, least similar first. -/
def similar (w : String) (known : List String) : List String :=
  let scored := (known.map fun k => (jaro w.toList k.toList, k)).filter fun p => decide (0.7 < p.1)
  (scored.mergeSort fun x y => decide (x.1 ≤ y.1)).map (·.2)

/-- A word that looks like a flag: it starts with `-` and is not `-` alone. -/
def isFlagLike (a : String) : Bool := a.startsWith "-" && a != "-"

/-- Splits `--name=value` into the name and the value. -/
def splitLong (a : String) : String × Option String :=
  let body := (a.drop 2).toString
  match body.splitOn "=" with
  | [n] => (n, none)
  | n :: rest => (n, some ("=".intercalate rest))
  | [] => (body, none)

/-- The help of a subcommand, descending through `help NAME ...`. -/
def helpFor : List String → Parsed
  | [] => .info rootHelp
  | w :: rest =>
    match Sub.ofName? w with
    | some s =>
      match rest with
      | [] => .info s.help
      | w' :: _ => .usageError (errorText ("unrecognized subcommand '" ++ w' ++ "'") [] s.usage)
    | none =>
      if w == "help" then
        match rest with
        | [] => .info helpHelp
        | w' :: _ =>
          .usageError (helpErrorText ("unrecognized subcommand '" ++ w' ++ "'"))
      else .usageError (errorText ("unrecognized subcommand '" ++ w ++ "'") [] rootUsage)

/-- The flags a subcommand knows, in the order suggestions consider them. -/
def Sub.longs (s : Sub) : List String :=
  (match s.flag? with | some (f, _) => [f] | none => []) ++ ["log", "help"]

/-- Whether a flag, written with its dashes, is the subcommand's own. -/
def Sub.isOwn (s : Sub) (flag : String) : Bool :=
  match s.flag? with
  | some (f, _) => flag == "--" ++ f
  | none => false

/-- The members of a subcommand's own group of arguments, as usage lines write them: its file
argument, then its own flag. -/
def Sub.groupText (s : Sub) : String :=
  "FILENAME" ++ (match s.flag? with | some (f, _) => "|--" ++ f | none => "")

/-- What a subcommand has read so far: its flag, `--log`, its file, and a file argument held back
until the next flag or the end of the list, when it is taken. For the usage line of an error it
keeps the flags given, in order, and whether a member of its own group (the file or its flag) has
been taken. `trailing` tells that `--` has been seen. -/
structure SubState where
  flag : Bool
  log : Bool
  file : Option String
  held : Option String
  given : List String
  grouped : Bool
  trailing : Bool

/-- Nothing read yet. -/
def SubState.empty : SubState := ⟨false, false, none, none, [], false, false⟩

/-- Notes a flag, written with its dashes, as given; the subcommand's own flag puts its group in
use. -/
def SubState.note (s : Sub) (st : SubState) (flag : String) : SubState :=
  { st with given := st.given ++ [flag], grouped := st.grouped || s.isOwn flag }

/-- Takes the held file argument: it becomes the file and puts the group in use. The flag is
`false` when it was empty, which names no file. -/
def SubState.take (st : SubState) : SubState × Bool :=
  match st.held with
  | none => (st, true)
  | some f => ({ st with file := some f, held := none, grouped := true }, f != "")

/-- The usage line of an error inside a subcommand, from what has been taken and the flags that
the error itself names. With nothing, the usual line; otherwise each flag once, in the order first
given, then the file argument: as given (`<FILENAME>`) once taken, else as optional. Where the
error counts groups (`withGroups`), a group with a member taken is written in angle brackets
instead of its members. -/
def SubState.usage (s : Sub) (st : SubState) (named : List String) (withGroups : Bool) : String :=
  let flags := st.given ++ named
  let grouped := withGroups && st.grouped
  if flags.isEmpty && !grouped && st.file.isNone then s.usage
  else
    let shown := (flags.filter fun f => !(grouped && s.isOwn f)).eraseDups
    "rox " ++ s.name ++ String.join (shown.map (" " ++ ·)) ++
      (if grouped then " <" ++ s.groupText ++ ">"
       else if st.file.isSome then " <FILENAME>"
       else if s.takesFile then " [FILENAME]" else "")

/-- The error of a flag given a value it does not take. -/
def unexpectedValue (flag value usage : String) : Parsed :=
  .usageError (errorText ("unexpected value '" ++ value ++ "' for '" ++ flag ++
    "' found; no more were expected") [] usage)

/-- Reads a subcommand's arguments. A flag first takes the held file argument; a word is held as
the file argument if there is room for one. -/
def parseSub (s : Sub) : SubState → List String → Parsed
  | st, [] =>
    match st.take with
    | (_, false) => .usageError emptyFileText
    | (st, true) => .invoke ⟨s, st.file, st.flag, st.log⟩
  | st, a :: rest =>
    if st.trailing || !isFlagLike a then
      if s.takesFile && st.file.isNone && st.held.isNone then parseSub s { st with held := some a } rest
      else .usageError (errorText ("unexpected argument '" ++ a ++ "' found") [] s.usage)
    else if a == "--" then parseSub s { st with trailing := true } rest
    else if a.startsWith "--" then
      let (n, value) := splitLong a
      let flag := "--" ++ n
      if s.isOwn flag || n == "log" || n == "help" then
        match value with
        | some v => unexpectedValue flag v (st.usage s [flag] true)
        | none =>
          match st.take with
          | (_, false) => .usageError emptyFileText
          | (st, true) =>
            if n == "help" then .info s.help
            else if st.given.contains flag then
              .usageError (errorText ("the argument '" ++ flag ++ "' cannot be used multiple times") []
                s.usage)
            else if n == "log" then parseSub s { st.note s flag with log := true } rest
            else parseSub s { st.note s flag with flag := true } rest
      else
        let st := st.take.1
        match (similar n s.longs).getLast? with
        | some close =>
          let close := "--" ++ close
          let st := if st.given.contains close then st else st.note s close
          .usageError (errorText ("unexpected argument '" ++ flag ++ "' found")
            ["a similar argument exists: '" ++ close ++ "'"] (st.usage s [] false))
        | none =>
          let tips := if s.takesFile then ["to pass '" ++ flag ++ "' as a value, use '-- " ++ flag ++ "'"]
            else []
          .usageError
            (errorText ("unexpected argument '" ++ flag ++ "' found") tips (st.usage s [] false))
    else
      match (a.drop 1).toString.toList.head? with
      | some 'h' =>
        match st.take with
        | (_, false) => .usageError emptyFileText
        | _ => .info s.help
      | some c =>
        let flag := String.ofList ['-', c]
        let tips := if s.takesFile then ["to pass '" ++ flag ++ "' as a value, use '-- " ++ flag ++ "'"]
          else []
        .usageError (errorText ("unexpected argument '" ++ flag ++ "' found") tips s.usage)
      | none => .usageError (errorText ("unexpected argument '" ++ a ++ "' found") [] s.usage)

/-- The known words that select subcommands, `help` included. -/
def subcommandNames : List String := Sub.all.map Sub.name ++ ["help"]

/-- A word that names no subcommand, with the subcommands close to it as tips. -/
def unknownSubcommand (w : String) : Parsed :=
  let tips := match similar w subcommandNames with
    | [] => []
    | [one] => ["a similar subcommand exists: '" ++ one ++ "'"]
    | many => ["some similar subcommands exist: " ++ ", ".intercalate (many.map ("'" ++ · ++ "'"))]
  .usageError (errorText ("unrecognized subcommand '" ++ w ++ "'") tips rootUsage)

/-- What has been read before the subcommand: whether `--log` is taken (it forms the program's
own group of arguments), and the flags given in order, for the usage line of an error. -/
structure RootState where
  log : Bool
  given : List String

/-- The usage line of an error before the subcommand, from what has been taken and the flags the
error itself names: with nothing, the usual line; otherwise each flag once, in the order first
given. Where the error counts groups (`withGroups`) and `--log` is taken, it is written `<--log>`
after the others. -/
def RootState.usage (st : RootState) (named : List String) (withGroups : Bool) : String :=
  let flags := st.given ++ named
  let grouped := withGroups && st.log
  if flags.isEmpty then rootUsage
  else
    let shown := (flags.filter fun f => !(grouped && f == "--log")).eraseDups
    "rox" ++ String.join (shown.map (" " ++ ·)) ++ (if grouped then " <--log>" else "")

/-- Reads the arguments before the subcommand: `--log`, help, the version, or the subcommand. -/
def parseRoot (st : RootState) : List String → Parsed
  | [] => .invoke ⟨.repl, none, false, st.log⟩
  | a :: rest =>
    if a == "--" then
      match rest with
      | [] => .invoke ⟨.repl, none, false, st.log⟩
      | w :: _ =>
        if subcommandNames.contains w then
          .usageError (errorText ("unexpected argument '" ++ w ++ "' found")
            ["subcommand '" ++ w ++ "' exists; to use it, remove the '--' before it"] rootUsage)
        else unknownSubcommand w
    else if a.startsWith "--" then
      let (n, value) := splitLong a
      let flag := "--" ++ n
      match n, value with
      | "help", none => .info rootHelp
      | "version", none => .info versionText
      | "log", none =>
        if st.log then
          .usageError (errorText "the argument '--log' cannot be used multiple times" [] rootUsage)
        else parseRoot ⟨true, st.given ++ [flag]⟩ rest
      | "log", some v | "help", some v | "version", some v =>
        unexpectedValue flag v (st.usage [flag] true)
      | _, _ =>
        match (similar n ["log", "help", "version"]).getLast? with
        | some close =>
          let close := "--" ++ close
          let st := if st.given.contains close then st
            else ⟨st.log || close == "--log", st.given ++ [close]⟩
          .usageError (errorText ("unexpected argument '" ++ flag ++ "' found")
            ["a similar argument exists: '" ++ close ++ "'"] (st.usage [] false))
        | none =>
          let inSub := Sub.all.filterMap fun s =>
            match (similar n s.longs).getLast?, rest.idxOf? s.name with
            | some close, some pos => some (pos, s.name ++ " --" ++ close)
            | _, _ => none
          let tips := match (inSub.mergeSort fun x y => decide (x.1 ≤ y.1)).head? with
            | some (_, hint) => ["'" ++ hint ++ "' exists"]
            | none => []
          .usageError (errorText ("unexpected argument '" ++ flag ++ "' found") tips (st.usage [] false))
    else if isFlagLike a then
      match (a.drop 1).toString.toList.head? with
      | some 'h' => .info rootHelp
      | some 'V' => .info versionText
      | some c =>
        .usageError (errorText ("unexpected argument '" ++ String.ofList ['-', c] ++ "' found") []
          rootUsage)
      | none => .usageError (errorText ("unrecognized subcommand '" ++ a ++ "'") [] rootUsage)
    else if a == "help" then helpFor rest
    else
      match Sub.ofName? a with
      | some s => parseSub s { SubState.empty with log := st.log } rest
      | none => unknownSubcommand a

/-- Reads a command line, the program's name left out. -/
def Parsed.ofArgs (args : List String) : Parsed := parseRoot ⟨false, []⟩ args

end Lox.Command
