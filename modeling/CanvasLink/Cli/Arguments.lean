import CanvasLink.Cli.Invocation
import CanvasLink.Decimal.Numeral

/-!
# CanvasLink — reading command lines

Arguments are read one after another, first those before the command, then those after its name.
An option takes its value from the same argument, after an equals sign, or from the next one. A
value is read when the next option, the next file or the end makes clear that it is complete, so
two mistakes are reported in the order in which they become clear.

Options for all commands may stand on either side of the command's name; those after it win.
-/

namespace CanvasLink.Cli

/-! ## Vocabulary -/

/-- The options that take a value. -/
inductive OptionName where
  | config
  | port
  | debugPort
  | target
deriving DecidableEq, Repr

/-- The options that take no value. -/
inductive FlagName where
  | verbose
  | help
  | version
deriving DecidableEq, Repr

/-- The names of commands. -/
inductive CommandName where
  | daemon
  | status
  | reconnect
  | eval
  | render
  | renderBatch
  | compile
deriving DecidableEq, Repr

/-- What stands in arguments that are not options. -/
inductive Positional where
  | none
  /-- One text, which may be empty. -/
  | text
  /-- One path, which may not be empty. -/
  | path
  /-- One path or more. -/
  | paths
deriving DecidableEq, Repr

/-- The two places of options: before the command's name and after it. -/
inductive Place where
  | front
  | command (name : CommandName)
deriving DecidableEq, Repr

def CommandName.ofText? : String → Option CommandName
  | "daemon" => some .daemon
  | "status" => some .status
  | "reconnect" => some .reconnect
  | "eval" => some .eval
  | "render" => some .render
  | "render-batch" => some .renderBatch
  | "compile" => some .compile
  | _ => none

/-- The command that prints help. -/
def helpCommand : String := "help"

namespace Place

/-- The option of a name that may stand here. -/
def option? (place : Place) (name : String) : Option OptionName :=
  match name with
  | "config" => some .config
  | "port" => some .port
  | "debug-port" => if place = .command .daemon then some .debugPort else none
  | "target" => if place = .command .daemon then some .target else none
  | _ => none

/-- The flag of a name that may stand here. -/
def flag? (place : Place) (name : String) : Option FlagName :=
  match name with
  | "verbose" => some .verbose
  | "help" => some .help
  | "version" => if place = .front then some .version else none
  | _ => none

/-- The flag of a letter that may stand here. -/
def letter? (place : Place) (c : Char) : Option FlagName :=
  match c with
  | 'v' => some .verbose
  | 'h' => some .help
  | 'V' => if place = .front then some .version else none
  | _ => none

/-- What arguments other than options are here. -/
def positional : Place → Positional
  | front => .none
  | command .daemon => .none
  | command .status => .none
  | command .reconnect => .none
  | command .eval => .text
  | command .render => .path
  | command .renderBatch => .paths
  | command .compile => .path

end Place

/-! ## What has been read -/

/-- The options and arguments read at one place. -/
structure Given where
  verbose : Option Nat := none
  config : Option String := none
  port : Option UInt16 := none
  debugPort : Option UInt16 := none
  target : Option String := none
  arguments : List String := []
deriving DecidableEq, Repr

/-- What still waits to be read. -/
inductive Pending where
  | option (name : OptionName) (value : Option String)
  | arguments (values : List String)
deriving DecidableEq, Repr

/-- How far the arguments of one place have been read. -/
structure Reader where
  place : Place
  given : Given := {}
  pending : Option Pending := none
  /-- The last argument was an option whose value may come next. -/
  wantsValue : Bool := false
  /-- Everything from here on is no option. -/
  trailing : Bool := false
deriving DecidableEq, Repr

/-- Largest count of repeated flags. -/
def maxVerbose : Nat := 255

/-- Reads a port. -/
def readPort (text : String) : Except UsageError UInt16 :=
  match Decimal.integer? text.toList with
  | some n => if 0 ≤ n ∧ n < UInt16.size then .ok (UInt16.ofNat n.toNat) else .error .badValue
  | none => .error .badValue

/-- Reads a path. -/
def readPath (text : String) : Except UsageError String :=
  if text = "" then .error .noValue else .ok text

namespace Given

/-- Takes an option with its value. An option stands once. -/
def put (g : Given) (name : OptionName) (value : String) : Except UsageError Given :=
  match name with
  | .config =>
    if g.config.isSome then .error .repeated
    else (readPath value).map fun path => { g with config := some path }
  | .port =>
    if g.port.isSome then .error .repeated
    else (readPort value).map fun port => { g with port := some port }
  | .debugPort =>
    if g.debugPort.isSome then .error .repeated
    else (readPort value).map fun port => { g with debugPort := some port }
  | .target =>
    if g.target.isSome then .error .repeated else .ok { g with target := some value }

/-- Takes arguments other than options. -/
def putArguments (g : Given) (positional : Positional) (values : List String) :
    Except UsageError Given :=
  match positional with
  | .text => .ok { g with arguments := g.arguments ++ values }
  | _ => (values.mapM readPath).map fun paths => { g with arguments := g.arguments ++ paths }

/-- Whether anything has been given. -/
def isEmpty (g : Given) : Bool :=
  g.verbose.isNone && g.config.isNone && g.port.isNone && g.debugPort.isNone && g.target.isNone &&
    g.arguments.isEmpty

end Given

namespace Reader

/-- Reads what waits to be read. -/
def resolve (r : Reader) : Except UsageError Reader :=
  match r.pending with
  | none => .ok r
  | some (.option _ none) => .error .noValue
  | some (.option name (some value)) =>
    (r.given.put name value).map fun given => { r with given := given, pending := none }
  | some (.arguments values) =>
    (r.given.putArguments r.place.positional values).map fun given =>
      { r with given := given, pending := none }

/-- Takes a flag. -/
def takeFlag (r : Reader) (flag : FlagName) : Except UsageError Reader := do
  let r ← r.resolve
  match flag with
  | .help => .error .displayHelp
  | .version => .error .displayVersion
  | .verbose =>
    let count := min maxVerbose (r.given.verbose.getD 0 + 1)
    return { r with given := { r.given with verbose := some count }, wantsValue := false }

/-- Takes an option with a value in the same argument, or one whose value may come next. -/
def takeOption (r : Reader) (name : OptionName) (value : Option String) :
    Except UsageError Reader := do
  let r ← r.resolve
  match value with
  | some value =>
    let given ← r.given.put name value
    return { r with given := given, wantsValue := false }
  | none => return { r with pending := some (.option name none), wantsValue := true }

/-- Takes an argument that begins with two dashes, given without them. -/
def takeLong (r : Reader) (body : List Char) : Except UsageError Reader :=
  let name := String.ofList (body.takeWhile (· ≠ '='))
  let value := match body.dropWhile (· ≠ '=') with
    | [] => none
    | _ :: rest => some (String.ofList rest)
  match r.place.option? name with
  | some option => r.takeOption option value
  | none =>
    match r.place.flag? name with
    | some flag => if value.isSome then .error .needlessValue else r.takeFlag flag
    | none => .error .unknownArgument

/-- Takes the letters after one dash. -/
def takeLetters (r : Reader) : List Char → Except UsageError Reader
  | [] => .ok r
  | c :: rest =>
    match r.place.letter? c with
    | some flag => do (← r.takeFlag flag).takeLetters rest
    | none => .error .unknownArgument

/-- The error for an argument that has no place. -/
def misplaced (r : Reader) (argument : String) : UsageError :=
  match r.place with
  | .front =>
    -- Behind two dashes a command's name is no command.
    if r.trailing && ((CommandName.ofText? argument).isSome || argument = helpCommand) then
      .unknownArgument
    else .invalidSubcommand
  | .command _ => .unknownArgument

/-- Whether another argument that is no option has a place. -/
def hasRoom (r : Reader) : Bool :=
  match r.place.positional with
  | .none => false
  | .paths => true
  | _ =>
    r.given.arguments.isEmpty && match r.pending with
      | some (.arguments _) => false
      | _ => true

/-- Takes an argument that is no option. -/
def takeArgument (r : Reader) (argument : String) : Except UsageError Reader :=
  if !r.hasRoom then .error (r.misplaced argument)
  else match r.pending with
    | some (.arguments values) =>
      .ok { r with pending := some (.arguments (values ++ [argument])), wantsValue := false }
    | _ => do
      let r ← r.resolve
      return { r with pending := some (.arguments [argument]), wantsValue := false }

/-- Takes an argument as the value of the option before it. -/
def takeValue (r : Reader) (argument : String) : Reader :=
  match r.pending with
  | some (.option name none) =>
    { r with pending := some (.option name (some argument)), wantsValue := false }
  | _ => { r with wantsValue := false }

/-- Takes an argument that is not the name of a command. -/
def take (r : Reader) (argument : String) : Except UsageError Reader :=
  if r.trailing then r.takeArgument argument
  else match argument.toList with
    | ['-', '-'] => .ok { r with trailing := true }
    | '-' :: '-' :: body => r.takeLong body
    | '-' :: c :: rest => r.takeLetters (c :: rest)
    | _ => if r.wantsValue then .ok (r.takeValue argument) else r.takeArgument argument

end Reader

/-! ## Whole command lines -/

/-- Reads the arguments after the command's name. -/
def readCommand (r : Reader) : List String → Except UsageError Reader
  | [] => r.resolve
  | argument :: arguments => do readCommand (← r.take argument) arguments

/-- The command of a name with what was read after it. -/
def Given.command (g : Given) : CommandName → Except UsageError Command
  | .daemon => .ok (.daemon g.debugPort g.target)
  | .status => .ok .status
  | .reconnect => .ok .reconnect
  | .eval => (first g).map .eval
  | .render => (first g).map .render
  | .renderBatch => (first g).map fun _ => .renderBatch g.arguments
  | .compile => (first g).map .compile
where
  /-- The first argument, which must be there. -/
  first (g : Given) : Except UsageError String :=
    match g.arguments with
    | argument :: _ => .ok argument
    | [] => .error .missingArgument

/-- Puts a command together with the options before and after its name. -/
def Given.invocation (front back : Given) (command : Command) : Invocation :=
  { verbose := (back.verbose.or front.verbose).getD 0
    config := back.config.or front.config
    port := back.port.or front.port
    command := command }

/-- The error of the command that prints help, given the commands to print it for. -/
def helpOn : List String → UsageError
  | [] => .displayHelp
  | [name] =>
    if (CommandName.ofText? name).isSome || name = helpCommand then .displayHelp
    else .invalidSubcommand
  | _ => .invalidSubcommand

/-- The end of a command line that names no command. -/
def endWithoutCommand (r : Reader) : UsageError :=
  match r.resolve with
  | .error e => e
  | .ok r => if r.given.isEmpty then .helpInstead else .missingSubcommand

/-- Reads the arguments from the front on. -/
def readFront (r : Reader) : List String → Except UsageError Invocation
  | [] => .error (endWithoutCommand r)
  | argument :: arguments =>
    let mayName := !r.trailing && !r.wantsValue
    if mayName && argument = helpCommand then .error (helpOn arguments)
    else match if mayName then CommandName.ofText? argument else none with
      | some name => do
        -- What stands before the command is completed only after what stands behind it.
        let back ← readCommand { place := .command name } arguments
        let command ← back.given.command name
        let front ← r.resolve
        return front.given.invocation back.given command
      | none => do readFront (← r.take argument) arguments

/-- Reads a command line without the program's name. -/
def Invocation.ofArguments (arguments : List String) : Except UsageError Invocation :=
  readFront { place := .front } arguments

end CanvasLink.Cli
