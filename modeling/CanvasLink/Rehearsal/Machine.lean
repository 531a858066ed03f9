import CanvasLink.Cli.Run
import CanvasLink.Daemon.Lifecycle
import CanvasLink.Session.Connect

/-!
# CanvasLink — rehearsing commands

Commands are carried out on a machine in memory. Programs on it take ports and write files, but no
connection is ever made: whoever asks for one is refused. So requests to a daemon end as they do
when nothing listens, and a daemon lives through its life without a session.
-/

namespace CanvasLink.Rehearsal

open CanvasLink.Bridge CanvasLink.Cli CanvasLink.Daemon CanvasLink.Files

/-- A machine that lets no connection through. -/
structure Machine where
  files : Tree
  /-- Where the config file is by default. -/
  configPath : Option String
  /-- Where the daemon's liveness file is. -/
  pidPath : String
  /-- Number of the process that carries out commands. -/
  pid : UInt32
  /-- The ports that are taken. -/
  taken : List UInt16

namespace Machine

/-- Standard input: what is left to read, or why nothing can be read. -/
abbrev Input := Except FileError String

/-- What commands may read. Standard input is empty once it has been read. -/
def surroundings (m : Machine) : Surroundings (StateM Input) where
  readFile path := return m.files.read path
  fileExists path := return m.files.contains path
  readInput := do
    let text ← get
    set (Except.ok "" : Input)
    return text
  configPath := m.configPath
  pidPath := m.pidPath

/-- The task that an invocation comes down to. -/
def task (m : Machine) (input : Input) (invocation : Invocation) : Except Cli.Error Task :=
  ((prepare m.surroundings invocation).run.run input).1

/-- Connects to the target application, whose endpoint cannot be asked. -/
def connect (settings : Settings) : Connecting :=
  ((Connecting.start settings).1.step (.directory .unsent)).1

/-- The report on a request to a daemon, which cannot be reached. -/
def ask (m : Machine) (base : String) (request : ClientRequest) : Report :=
  report base (readPid m.files m.pidPath) request (.error .refused)

/-- Starts a daemon and lets it connect ahead of the first request. -/
def startDaemon (m : Machine) (settings : DaemonSettings) : Machine × Daemon :=
  let daemon := Daemon.starting ⟨settings.retry, settings.bridge.probeTimeout⟩ settings.pidPath m.pid
    m.files
  if m.taken.contains settings.port then
    (m, daemon.step (.bound (.error ("127.0.0.1:" ++ toString settings.port.toNat))))
  else
    let daemon := daemon.run [.bound (.ok ()), .record none, .warmUp]
    let daemon := match (connect settings.bridge).outcome? with
      | some outcome => daemon.run [.connected 0 (outcome.map fun _ => ()), .share warmUp]
      | none => daemon
    let taken := if daemon.isServing then settings.port :: m.taken else m.taken
    ({ m with files := daemon.files, taken := taken }, daemon)

/-- Tells a daemon to end. -/
def stopDaemon (m : Machine) (settings : DaemonSettings) (daemon : Daemon) : Machine × Daemon :=
  let ended := daemon.run [.signal, .drained]
  let taken := if daemon.isServing && !ended.isUp then m.taken.erase settings.port else m.taken
  ({ m with files := ended.files, taken := taken }, ended)

/-- The report on a run of the daemon. -/
def reportDaemon (daemon : Daemon) : Report :=
  match daemon.outcome? with
  | some (.error e) => ⟨"", some (.daemon e.message)⟩
  | _ => ⟨"", none⟩

/-- Carries out an invocation. A daemon is told to end as soon as it is up. -/
def carryOut (m : Machine) (input : Input) (invocation : Invocation) : Machine × Report :=
  match m.task input invocation with
  | .error e => (m, ⟨"", some e⟩)
  | .ok (.print text) => (m, ⟨text, none⟩)
  | .ok (.ask base request) => (m, m.ask base request)
  | .ok (.runDaemon settings) =>
    let (m, daemon) := m.startDaemon settings
    let (m, daemon) := m.stopDaemon settings daemon
    (m, reportDaemon daemon)

end Machine

end CanvasLink.Rehearsal
