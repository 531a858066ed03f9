import CanvasLink.Cli.Arguments
import CanvasLink.Cli.Run
import CanvasLink.Daemon.Lifecycle

/-!
# CanvasLink — the program

Carries out the command line that it is given. This program opens no connections of its own: a
request finds no daemon, and a daemon finds no port to listen on. All that needs only files and
standard input is done in full.
-/

namespace CanvasLink

open CanvasLink.Cli CanvasLink.Files

/-- A failure of the system, as a failure to read. -/
def fileError : IO.Error → FileError
  | .noFileOrDirectory _ _ _ => .notFound
  | .inappropriateType _ 20 _ => .notDirectory
  | .inappropriateType _ 21 _ => .isDirectory
  | .illegalOperation 21 _ => .isDirectory
  | .invalidArgument _ 36 _ => .nameTooLong
  | e => .other (toString e)

/-- Reads the text of a file. -/
def readFile (path : String) : IO (Except FileError String) := do
  if Tree.holdsNul path then return .error .nulInPath
  try
    return decodeText (← IO.FS.readBinFile path)
  catch e =>
    return .error (fileError e)

/-- Whether something is at a path. -/
def fileExists (path : String) : IO Bool := do
  match ← readFile path with
  | .error .notFound => return false
  | .error .notDirectory => return false
  | .error .nameTooLong => return false
  | .error .nulInPath => return false
  | _ => return true

/-- Reads a stream to its end. -/
partial def readStream (stream : IO.FS.Stream) (bytes : ByteArray) : IO ByteArray := do
  let more ← stream.read 65536
  if more.isEmpty then return bytes
  readStream stream (bytes ++ more)

/-- Reads all of standard input. -/
def readStandardInput : IO (Except FileError String) := do
  try
    return decodeText (← readStream (← IO.getStdin) .empty)
  catch e =>
    return .error (fileError e)

/-- Where the config file is by default: in the user's directory for such files. -/
def configPath : IO (Option String) := do
  let named := (← IO.getEnv "XDG_CONFIG_HOME").filter (·.startsWith "/")
  let home := (← IO.getEnv "HOME").filter (· ≠ "")
  let directory := named.or (home.map (join · ".config"))
  return directory.map fun directory => join (join directory "figbridge") "config.json"

/-- What this process may read. -/
def processSurroundings : IO (Surroundings IO) := do
  return {
    readFile := readFile
    fileExists := fileExists
    readInput := readStandardInput
    configPath := ← configPath
    pidPath := Daemon.pidPath (← IO.getEnv "XDG_RUNTIME_DIR") (← IO.getEnv "TMPDIR") }

/-- Carries out a task. -/
def perform (pid : Option UInt32) : Task → Report
  | .print text => ⟨text, none⟩
  | .ask base request => report base pid request (.error .refused)
  | .runDaemon settings =>
    let address := "127.0.0.1:" ++ toString settings.port.toNat
    ⟨"", some (.daemon (Daemon.StartError.noPort address).message)⟩

/-- Carries out an invocation and gives the exit code. -/
def carryOut (invocation : Invocation) : IO UInt32 := do
  let surroundings ← processSurroundings
  let report ← match ← (prepare surroundings invocation).run with
    | .error e => pure ⟨"", some e⟩
    | .ok task => do
      let recorded ← readFile surroundings.pidPath
      pure (perform (recorded.toOption.bind Daemon.parsePid) task)
  IO.print report.output
  match report.error with
  | none => return 0
  | some e =>
    IO.eprintln ("error: " ++ e.message)
    return 1

end CanvasLink

/-- Reads the command line and carries it out. -/
def main (arguments : List String) : IO UInt32 := do
  match CanvasLink.Cli.Invocation.ofArguments arguments with
  | .error e => return UInt32.ofNat e.exitCode
  | .ok invocation => CanvasLink.carryOut invocation
