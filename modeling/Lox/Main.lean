import Lox.Command.Run
/-!
The `rox` executable. It reads the argument list with `Parsed.ofArgs`, and for a subcommand reads
its file and hands it to the same functions `Outcome.ofArgs` runs; the prompt reads standard input
one line at a time and runs each line with `replStep`. All it adds is the reading and writing.
-/
open Lox Lox.Command

/-- Reads one line of standard input as bytes, its newline included; nothing at the end. -/
partial def readLineBytes (stdin : IO.FS.Stream) (acc : Array UInt8) : IO (Array UInt8) := do
  let chunk ← stdin.read 1
  match chunk.data[0]? with
  | none => return acc
  | some b => if b == 10 then return acc.push b else readLineBytes stdin (acc.push b)

/-- The clock, in seconds. -/
def clockSeconds : IO Float := do
  return (← IO.monoMsNow).toFloat / 1000.0

/-- The prompt: each line of standard input is a unit of one echoing session. -/
partial def promptLoop (stdin : IO.FS.Stream) (s : Session) : IO UInt32 := do
  let bytes ← readLineBytes stdin #[]
  if bytes.isEmpty then return 0
  match Utf8.decode (ByteArray.mk bytes) with
  | .error _ =>
    IO.eprint unreadableLine
    return 1
  | .ok text =>
    let s := { s with machine := { s.machine with clock := ← clockSeconds } }
    let some line := Backspace.apply (lineText text)
      | IO.eprint editorStopped
        return 101
    let (s', out, err) := replStep s line
    IO.print out
    IO.eprint err
    (← IO.getStdout).flush
    promptLoop stdin s'

/-- Reads the file a subcommand's path leads to, under the name it has in the working directory;
a path that leads to no file there, or a file that cannot be read, leaves the world empty. -/
def readInput (path : String) : IO (List (String × ByteArray)) := do
  match Path.locate (fun _ => true) path with
  | .ok (.file name) =>
    try
      return [(name, ← IO.FS.readBinFile path)]
    catch _ =>
      return []
  | _ => return []

def main (args : List String) : IO UInt32 := do
  match Parsed.ofArgs args with
  | .info text =>
    IO.print text
    return 0
  | .usageError text =>
    IO.eprint text
    return 2
  | .invoke i =>
    if i.log then IO.FS.writeFile logFile i.logAtStart
    match i.sub with
    | .repl =>
      let w : World := ⟨[], ByteArray.empty, ← clockSeconds⟩
      promptLoop (← IO.getStdin) (w.session true)
    | _ =>
      let files ← match i.file with
        | some name => do
          if i.log then
            let h ← IO.FS.Handle.mk logFile .append
            h.putStr (logReading name)
          readInput name
        | none => pure []
      let o := i.perform ⟨files, ByteArray.empty, ← clockSeconds⟩
      IO.print o.stdout
      IO.eprint o.stderr
      return o.exitCode.toUInt32
