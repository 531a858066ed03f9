import CanvasLink.Bridge.Settings
import CanvasLink.Json.Record

/-!
# CanvasLink — config files

A config file is a JSON object. Every key may be missing, and each setting then has its default.
-/

namespace CanvasLink.Daemon

open CanvasLink.Bridge CanvasLink.Json

/-- Port of the request surface unless another one is set. -/
def defaultPort : UInt16 := 3456

/-- The settings of a config file. Spans of time are in milliseconds. -/
structure Config where
  port : UInt16 := defaultPort
  debugHost : String := ({} : Settings).debugHost
  debugPort : UInt16 := ({} : Settings).debugPort
  urlPatterns : List String := ({} : Settings).patterns
  target : Option String := ({} : Settings).target
  connectTimeout : UInt64 := 10000
  settleDelay : UInt64 := 1000
  probeTimeout : UInt64 := 2000
  maxRetries : UInt32 := ({} : RetryPolicy).maxRetries
  execTimeout : UInt64 := 30000
  retryDelay : UInt64 := 500
deriving DecidableEq, Repr

namespace Config

variable {α : Type} [Readable α]

def fields : Fields α Config :=
  let d : Config := {}
  (Fields.make Config.mk).field (.withDefault "port" Decode.u16 d.port)
    |>.field (.withDefault "debugHost" Decode.string d.debugHost)
    |>.field (.withDefault "debugPort" Decode.u16 d.debugPort)
    |>.field (.withDefault "urlPatterns" (Decode.list Decode.string) d.urlPatterns)
    |>.field (.optional "target" Decode.string)
    |>.field (.withDefault "connectTimeoutMs" Decode.u64 d.connectTimeout)
    |>.field (.withDefault "settleDelayMs" Decode.u64 d.settleDelay)
    |>.field (.withDefault "probeTimeoutMs" Decode.u64 d.probeTimeout)
    |>.field (.withDefault "maxRetries" Decode.u32 d.maxRetries)
    |>.field (.withDefault "execTimeoutMs" Decode.u64 d.execTimeout)
    |>.field (.withDefault "retryDelayMs" Decode.u64 d.retryDelay)

def decode : Decoder α Config :=
  fields.decode "FileConfig"

def encode (c : Config) : Value :=
  .object [("port", .int c.port.toNat), ("debugHost", .string c.debugHost),
    ("debugPort", .int c.debugPort.toNat), ("urlPatterns", .array (c.urlPatterns.map .string)),
    ("target", match c.target with
      | some target => .string target
      | none => .null),
    ("connectTimeoutMs", .int c.connectTimeout.toNat), ("settleDelayMs", .int c.settleDelay.toNat),
    ("probeTimeoutMs", .int c.probeTimeout.toNat), ("maxRetries", .int c.maxRetries.toNat),
    ("execTimeoutMs", .int c.execTimeout.toNat), ("retryDelayMs", .int c.retryDelay.toNat)]

/-- Reads the text of a config file. Without an error of its own, what is wrong is the text. -/
def parse (text : String) : Except (Option DecodeError) Config :=
  let document := Document.read text.toList
  match decode document.root with
  | .error .unreadable => .error none
  | .error error => .error (some error)
  | .ok config => if document.complete then .ok config else .error none

/-- The settings of the bridge. -/
def bridge (c : Config) : Settings :=
  { debugHost := c.debugHost
    debugPort := c.debugPort
    patterns := c.urlPatterns
    target := c.target
    connectTimeout := .ofMillis c.connectTimeout.toNat
    settleDelay := .ofMillis c.settleDelay.toNat
    probeTimeout := .ofMillis c.probeTimeout.toNat }

/-- The retry policy. -/
def retry (c : Config) : RetryPolicy :=
  { maxRetries := c.maxRetries
    execTimeout := .ofMillis c.execTimeout.toNat
    retryDelay := .ofMillis c.retryDelay.toNat }

end Config

end CanvasLink.Daemon
