import ChatStream.Render.Clock
import ChatStream.Request
import ChatStream.Wire.Event

/-!
# Settings

Everything that can be set, with its default. Settings come from four layers, each able to supply
some of them: the defaults, a file, the environment and the command line, later layers winning.
`Origin` names the last layer that supplied anything.

Settings are resolved first and checked afterwards, so a bad value in one layer does no harm when a
later layer replaces it.
-/

namespace ChatStream

open Decimal Text

/-- The layer that supplied a setting last. -/
inductive ConfigOrigin
  | commandLine
  | environment
  | file
  | default
  deriving DecidableEq, Repr

/-- The name of a layer. -/
def ConfigOrigin.name : ConfigOrigin → String
  | .commandLine => "CLI"
  | .environment => "environment"
  | .file => "config file"
  | .default => "default"

/-- What is added to the system instruction when a summary is asked for. -/
def defaultDirective : String :=
  "The conversation is close to the context limit. Before answering, write a short summary of " ++
    "the conversation so far, then answer the latest message."

/-- The settings of a client. -/
structure Config where
  /-- Where the server takes requests. -/
  endpoint : String := "http://localhost:8080/api/chat/stream"
  /-- How long connecting may take, in milliseconds. -/
  connectTimeoutMillis : Nat := 10000
  /-- How long a request may take, in seconds; `none` is for ever. -/
  requestTimeoutSecs : Option Nat := none
  model : String := "llama3.2"
  sampling : Sampling := .default
  /-- The system instruction of every message. -/
  systemPrompt : Option String := none
  /-- Paints in a second. -/
  frameRate : Nat := 60
  /-- The context window in tokens. -/
  contextLimit : Nat := 8192
  /-- The fraction of the window from which on a summary is offered. -/
  nearFraction : Single := tenths 8
  directive : String := defaultDirective
  /-- Whether the text of a cancelled answer is kept. -/
  keepCancelled : Bool := false
  /-- Records kept in the history; zero is no limit. -/
  historyMaxMessages : Nat := 0
  /-- Bytes of content kept in the history; zero is no limit. -/
  historyMaxBytes : Nat := 0
  wire : LineFormat := {}
  /-- Whether a file was read. -/
  fromFile : Bool := false
  origin : ConfigOrigin := .default
  deriving DecidableEq, Repr

namespace Config

/-- The distance of two paints, in nanoseconds. -/
def paintInterval (c : Config) : Nat := nanosPerSecond / max c.frameRate 1

/-- The first thing that is wrong with the settings. -/
inductive Fault
  | emptyEndpoint
  | emptyModel
  | frameRate (got : Nat)
  | contextLimit
  | nearFraction (got : Single)
  | emptyEventPrefix
  deriving DecidableEq, Repr

/-- What a fault is called. -/
def Fault.reason : Fault → String
  | .emptyEndpoint => "server.endpoint must not be empty"
  | .emptyModel => "generation.model must not be empty"
  | .frameRate n => "render.frame_rate_hz must be between 1 and 240, got " ++ natText n
  | .contextLimit => "budget.context_limit must be positive"
  | .nearFraction x => "budget.near_limit_fraction must be in (0, 1], got " ++ x.display
  | .emptyEventPrefix => "wire.event_prefix must not be empty"

/-- The message about a fault. -/
def Fault.message (f : Fault) : String := "Invalid configuration: " ++ f.reason

/-- Checks the settings, in a fixed order. -/
def validate (c : Config) : Except Fault Unit :=
  if isBlankText c.endpoint then .error .emptyEndpoint
  else if isBlankText c.model then .error .emptyModel
  else if c.frameRate < 1 ∨ 240 < c.frameRate then .error (.frameRate c.frameRate)
  else if c.contextLimit = 0 then .error .contextLimit
  else if !(Binary.lt (tenths 0) c.nearFraction && Binary.le c.nearFraction (tenths 10)) then
    .error (.nearFraction c.nearFraction)
  else if c.wire.marker.isEmpty then .error .emptyEventPrefix
  else .ok ()

end Config

end ChatStream
