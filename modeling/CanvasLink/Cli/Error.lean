import CanvasLink.Files.Tree
import CanvasLink.Json.Record
import CanvasLink.Markup.Error
import CanvasLink.Wire.Surface

/-!
# CanvasLink — errors of commands

What can go wrong between a command line that can be read and the end of its command.
-/

namespace CanvasLink.Cli

open CanvasLink.Files CanvasLink.Json CanvasLink.Wire

inductive Error where
  /-- The config file is not JSON, or is JSON of another shape. -/
  | config (path : String) (reason : Option DecodeError)
  | file (path : String) (error : FileError)
  /-- Standard input cannot be read. -/
  | input (error : FileError)
  /-- No daemon could be reached at an address. -/
  | unreachable (base : String)
  /-- The daemon answered with a failure. -/
  | remote (body : ErrorBody)
  | markup (error : Markup.Error)
  /-- The exchange with the daemon went wrong. -/
  | http (message : String)
  /-- The daemon could not be started or stopped. -/
  | daemon (message : String)

def Error.message : Error → String
  | config path reason =>
    "invalid config file " ++ path ++ ": " ++ (reason.map DecodeError.message).getD ""
  | file path error => "cannot read " ++ path ++ ": " ++ error.message
  | input error => error.message
  | unreachable base =>
    "daemon not reachable at " ++ base ++ "; start it with \x60figbridge daemon\x60"
  | remote body => "[" ++ body.kind ++ "] " ++ body.message
  | markup error => error.message
  | http message => message
  | daemon message => message

end CanvasLink.Cli
