import CanvasLink.Decimal.Numeral
import CanvasLink.Files.Tree
import CanvasLink.Text.Blank

/-!
# CanvasLink — the daemon's liveness file

While the daemon is up, a file holds the number of its process. The file goes only after the
session is closed, so where there is no file there is no session.
-/

namespace CanvasLink.Daemon

open CanvasLink.Files

/-- Name of the liveness file. -/
def pidFileName : String := "figbridge.pid"

/-- Where the liveness file is: in the user's directory for such files if one is named, else in the
directory for temporary files. -/
def pidPath (runtimeDirectory temporaryDirectory : Option String) : String :=
  match runtimeDirectory.filter (· ≠ "") with
  | some directory => join directory pidFileName
  | none => join (temporaryDirectory.getD "/tmp") pidFileName

/-- Reads the number of a process, with blanks around it. -/
def parsePid (text : String) : Option UInt32 :=
  (Decimal.natural? (Text.trim text.toList)).bind fun n =>
    if n < UInt32.size then some (UInt32.ofNat n) else none

/-- The number in a liveness file, if there is a file and a number in it. -/
def readPid (files : Tree) (path : String) : Option UInt32 :=
  match files.read path with
  | .ok text => parsePid text
  | .error _ => none

/-- Why the liveness file cannot be made. -/
inductive PidError where
  /-- Its directory cannot be made. -/
  | noDirectory (directory : String)
  | notWritten (path : String)
deriving DecidableEq, Repr

def PidError.message : PidError → String
  | noDirectory directory => "Failed to create pid directory: " ++ directory
  | notWritten path => "Failed to write pid file: " ++ path

/-- Makes the liveness file of a process, with its directory. -/
def createPidFile (files : Tree) (path : String) (pid : UInt32) : Except PidError Tree := do
  let files ← (files.makeDirectories (parent path)).mapError fun _ => .noDirectory (parent path)
  (files.write path (toString pid.toNat)).mapError fun _ => .notWritten path

/-- Removes the liveness file. One that is gone already is fine. -/
def removePidFile (files : Tree) (path : String) : Tree :=
  match files.remove path with
  | .ok files => files
  | .error _ => files

end CanvasLink.Daemon
