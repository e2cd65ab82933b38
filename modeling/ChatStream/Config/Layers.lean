import ChatStream.Config.File
import ChatStream.Decimal.Reading
import ChatStream.Log
import ChatStream.Path

/-!
# Settings from all layers

Loading starts from the defaults, applies a file if there is one, then the environment. The command
line comes last, by `Overrides`. A file that is not there is no fault; one that cannot be read is.
-/

namespace ChatStream

open Decimal Text

/-- The environment: variables by name. -/
abbrev Environment := List (String × String)

/-- The value of a variable. -/
def Environment.get? (env : Environment) (name : String) : Option String :=
  (env.find? (·.1 = name)).map (·.2)

/-- What is found where the settings file should be. -/
inductive FileState
  | missing
  /-- There is something, but no text: a directory, or bytes that are not UTF-8. -/
  | unreadable
  | text (s : String)
  deriving DecidableEq, Repr

/-- Why settings could not be loaded. -/
inductive LoadError
  | read
  | parse
  deriving DecidableEq, Repr

namespace Config

/-- Applies the settings file, if a path to one is given. -/
def loadFile (file : Option FileState) : Except LoadError (Config × List LogLine) :=
  match file with
  | none => .ok ({}, [])
  | some .missing =>
    .ok ({}, [{ level := .debug, message := "Config file not found, using defaults" }])
  | some .unreadable => .error .read
  | some (.text s) =>
    match applyFile? s {} with
    | some c => .ok (c, [{ level := .info, message := "Loaded configuration from file" }])
    | none => .error .parse

/-- Settings with the warnings that came up on the way. -/
abbrev Logged := Config × List LogLine

/-- Applies a variable that is taken as it is. -/
def applyText (env : Environment) (name : String) (set : String → Config → Config) (c : Logged) :
    Logged :=
  match env.get? name with
  | some s => ({ set s c.1 with origin := .environment }, c.2)
  | none => c

/-- Applies a variable that must be read, blanks around it aside. One that cannot be read is
reported and counts as not set. -/
def applyRead {α : Type} (env : Environment) (name : String) (read : String → Option α)
    (set : α → Config → Config) (c : Logged) : Logged :=
  match env.get? name with
  | none => c
  | some raw =>
    match read (trim raw) with
    | some a => ({ set a c.1 with origin := .environment }, c.2)
    | none =>
      (c.1, c.2 ++ [{ level := .warn, message := "Ignoring unparseable environment value",
                      fields := [("var", name), ("value", raw)] }])

/-- Whether a text says yes. -/
def saysYes (s : String) : Bool := s = "1" || s.toList.map Char.toLower = "true".toList

/-- Applies the environment, variable by variable. -/
def applyEnvironment (env : Environment) (c : Logged) : Logged :=
  c |> applyText env "HEARTH_ENDPOINT" (fun s c ↦ { c with endpoint := s })
    |> applyText env "HEARTH_MODEL" (fun s c ↦ { c with model := s })
    |> applyRead env "HEARTH_TEMPERATURE" readFloat? (fun x c ↦
        { c with sampling.temperature := clampTemperature x })
    |> applyText env "HEARTH_SYSTEM_PROMPT" (fun s c ↦ { c with systemPrompt := some s })
    |> applyRead env "HEARTH_FRAME_RATE" (readNat? 0x100000000) (fun n c ↦
        { c with frameRate := n })
    |> applyRead env "HEARTH_CONTEXT_LIMIT" (readNat? 0x100000000) (fun n c ↦
        { c with contextLimit := n })
    |> applyText env "HEARTH_PERSIST_PARTIAL" (fun s c ↦
        { c with keepCancelled := saysYes s })

/-- Loads the settings from a file and the environment. -/
def load (file : Option FileState) (env : Environment) : Except LoadError Logged :=
  (loadFile file).map (applyEnvironment env)

end Config

/-- Settings given on the command line. -/
structure Overrides where
  endpoint : Option String := none
  model : Option String := none
  systemPrompt : Option String := none
  temperature : Option Single := none
  frameRate : Option Nat := none
  deriving DecidableEq, Repr

namespace Overrides

/-- Whether nothing is given. -/
def isEmpty (o : Overrides) : Bool :=
  o.endpoint.isNone && o.model.isNone && o.systemPrompt.isNone && o.temperature.isNone &&
    o.frameRate.isNone

/-- Applies what is given. -/
def apply (o : Overrides) (c : Config) : Config :=
  { c with
    endpoint := o.endpoint.getD c.endpoint
    model := o.model.getD c.model
    systemPrompt := o.systemPrompt.or c.systemPrompt
    sampling.temperature := (o.temperature.map clampTemperature).getD c.sampling.temperature
    frameRate := o.frameRate.getD c.frameRate
    origin := if o.isEmpty then c.origin else .commandLine }

end Overrides

namespace Config

/-- Where the settings file is by default: below the configuration directory, which an absolute
`XDG_CONFIG_HOME` names, or else below `.config` in the home directory. That is named by `HOME`, or
else it is the one of the user's account, if there is one. -/
def defaultPath? (env : Environment) (accountHome : Option String) : Option String :=
  let home? := ((env.get? "HOME").filter (!·.isEmpty)).or accountHome
  let base? := ((env.get? "XDG_CONFIG_HOME").filter (·.startsWith "/")).or
    (home?.map (Path.join · ".config"))
  base?.map fun base ↦ Path.join (Path.join base "hearth") "client.toml"

end Config

end ChatStream
