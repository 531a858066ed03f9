/-!
# CanvasLink — invocations

What a command line asks for: one command, and options that hold for all commands.
-/

namespace CanvasLink.Cli

/-- A command with its own arguments. -/
inductive Command where
  /-- Runs the daemon in the foreground. -/
  | daemon (debugPort : Option UInt16) (target : Option String)
  /-- Reports whether the daemon holds a healthy session. -/
  | status
  /-- Drops the daemon's session and connects again. -/
  | reconnect
  /-- Evaluates a script in the document. -/
  | eval (code : String)
  /-- Renders one markup file. -/
  | render (file : String)
  /-- Renders several markup files in order. -/
  | renderBatch (files : List String)
  /-- Prints the script that a markup file compiles to. -/
  | compile (file : String)
deriving DecidableEq, Repr

/-- A command line. -/
structure Invocation where
  verbose : Nat
  /-- The config file to load instead of the one in the default place. -/
  config : Option String
  /-- Port of the daemon's request surface. -/
  port : Option UInt16
  command : Command
deriving DecidableEq, Repr

/-- Why a command line is not carried out. -/
inductive UsageError where
  | displayHelp
  | displayVersion
  /-- There is nothing on the command line to go by. -/
  | helpInstead
  | unknownArgument
  | invalidSubcommand
  | missingSubcommand
  | missingArgument
  /-- An option lacks its value, or the value may not be empty. -/
  | noValue
  /-- A value is given to an option that takes none. -/
  | needlessValue
  /-- A value cannot be read. -/
  | badValue
  /-- An option stands twice. -/
  | repeated
deriving DecidableEq, Repr

/-- The exit code that goes with it: only help and version that are asked for are a success. -/
def UsageError.exitCode : UsageError → Nat
  | displayHelp => 0
  | displayVersion => 0
  | _ => 2

end CanvasLink.Cli
