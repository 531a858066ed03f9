import CanvasLink.Cli.Error
import CanvasLink.Cli.Invocation
import CanvasLink.Daemon.Client
import CanvasLink.Daemon.Config
import CanvasLink.Daemon.PidFile
import CanvasLink.Markup.Compile

/-!
# CanvasLink — carrying out command lines

A command line comes down to one of three tasks: a text to print, one request to the daemon with a
way to report on its answer, or running the daemon. `prepare` finds the task and reads the files
that it needs; nothing has been sent by then. `report` says what the answer comes to.
-/

namespace CanvasLink.Cli

open CanvasLink.Bridge CanvasLink.Daemon CanvasLink.Files CanvasLink.Json CanvasLink.Wire

/-! ## Surroundings -/

/-- What a command may read. -/
structure Surroundings (m : Type → Type) where
  readFile : String → m (Except FileError String)
  fileExists : String → m Bool
  /-- All of standard input. -/
  readInput : m (Except FileError String)
  /-- Where the config file is by default. -/
  configPath : Option String
  /-- Where the daemon's liveness file is. -/
  pidPath : String

/-- Reading that may fail. -/
abbrev Reading (m : Type → Type) (α : Type) := ExceptT Error m α

section

variable {m : Type → Type} [Monad m]

/-- Reads a config file that must be there. -/
def readConfig (s : Surroundings m) (path : String) : Reading m Config := do
  match ← s.readFile path with
  | .error e => throw (.file path e)
  | .ok text =>
    match Config.parse text with
    | .ok config => return config
    | .error reason => throw (.config path reason)

/-- Reads the config file that is asked for, else the one in the default place if it is there. -/
def loadConfig (s : Surroundings m) (asked : Option String) : Reading m Config := do
  match asked, s.configPath with
  | some path, _ => readConfig s path
  | none, none => return {}
  | none, some path => if ← s.fileExists path then readConfig s path else return {}

/-- Stands for standard input among files. -/
def inputMark : String := "-"

/-- Reads standard input. -/
def readInput (s : Surroundings m) : Reading m String := do
  match ← s.readInput with
  | .ok text => return text
  | .error e => throw (.input e)

/-- Reads a file, or standard input. -/
def readSource (s : Surroundings m) (path : String) : Reading m String := do
  if path = inputMark then readInput s
  else match ← s.readFile path with
    | .ok text => return text
    | .error e => throw (.file path e)

/-- Reads files in order. -/
def readSources (s : Surroundings m) : List String → Reading m (List String)
  | [] => return []
  | path :: paths => do
    let text ← readSource s path
    let texts ← readSources s paths
    return text :: texts

end

/-! ## Tasks -/

/-- What the daemon is to run with. -/
structure DaemonSettings where
  port : UInt16
  bridge : Settings
  retry : RetryPolicy
  pidPath : String
deriving DecidableEq, Repr

/-- What a command line comes down to. -/
inductive Task where
  /-- Print a text. -/
  | print (text : String)
  /-- Send a request to the daemon at an address. -/
  | ask (base : String) (request : ClientRequest)
  | runDaemon (settings : DaemonSettings)
deriving DecidableEq, Repr

/-- The settings of the daemon: options go before the config file. -/
def daemonSettings (config : Config) (pidPath : String) (port debugPort : Option UInt16)
    (target : Option String) : DaemonSettings :=
  let bridge := config.bridge
  { port := port.getD config.port
    bridge :=
      { bridge with
        debugPort := debugPort.getD bridge.debugPort
        target := target.or bridge.target }
    retry := config.retry
    pidPath := pidPath }

/-- Finds the task of a command line and reads the files that it needs. -/
def prepare {m : Type → Type} [Monad m] (s : Surroundings m) (invocation : Invocation) :
    Reading m Task := do
  let config ← loadConfig s invocation.config
  let base := localBase (invocation.port.getD config.port)
  match invocation.command with
  | .daemon debugPort target =>
    return .runDaemon (daemonSettings config s.pidPath invocation.port debugPort target)
  | .status => return .ask base .health
  | .reconnect => return .ask base .reconnect
  | .eval code => do
    let code ← if code = inputMark then readInput s else pure code
    return .ask base (.exec (.eval code))
  | .render file => do
    let markup ← readSource s file
    return .ask base (.exec (.render markup))
  | .renderBatch files => do
    let units ← readSources s files
    return .ask base (.exec (.renderBatch units))
  | .compile file => do
    let markup ← readSource s file
    match Markup.compile markup with
    | .ok script => return .print (script ++ "\n")
    | .error refusal => throw (.markup (.unit refusal))

/-! ## Reports -/

/-- What a command prints, and the error that it ends with, if it does. -/
structure Report where
  output : String
  error : Option Error

/-- A JSON value as it is printed. -/
def printed (v : Value) : String :=
  v.indented ++ "\n"

/-- The report of a request for the session's state, with the number in the liveness file. -/
def reportHealth (pid : Option UInt32) (health : HealthResponse) : Report :=
  let pidValue := match pid with
    | some n => Value.int n.toNat
    | none => .null
  { output := printed (.sorted
      [("status", .string health.status), ("connected", .boolean health.connected),
        ("healthy", .boolean health.healthy), ("pid", pidValue)])
    error := none }

/-- The report of a reconnect. -/
def reportReconnect (response : ReconnectResponse) : Report :=
  match response.error with
  | some body => ⟨"", some (.remote body)⟩
  | none => ⟨printed response.encode, none⟩

/-- The report of an exec request: the result, if there is one, and the failure, if there is one. -/
def reportExec (response : ExecResponse) : Report :=
  { output := match response.result with
      | some result => printed (.object [("result", result)])
      | none => ""
    error := response.error.map .remote }

/-- What the client makes of a request that was not answered as expected. -/
def reportFailure (base : String) : ClientError → Report
  | .refused => ⟨"", some (.unreachable base)⟩
  | .broken message => ⟨"", some (.http message)⟩
  | .badBody => ⟨"", some (.http "error decoding response body")⟩

/-- The report of a request, given the body of the answer. -/
def report (base : String) (pid : Option UInt32) (request : ClientRequest)
    (answer : Except ClientError String) : Report :=
  let result := match request with
    | .health => (answer.bind (readAnswer HealthResponse.decode)).map (reportHealth pid)
    | .reconnect => (answer.bind (readAnswer ReconnectResponse.decode)).map reportReconnect
    | .exec _ => (answer.bind (readAnswer ExecResponse.decode)).map reportExec
  match result with
  | .ok report => report
  | .error e => reportFailure base e

end CanvasLink.Cli
