import ChatStream.Config.Layers

/-!
# Command lines

A command line names one of three commands. The options that concern the settings may stand before
or after the command; each comes at most once in either place, and the place after the command
wins. An option's value follows it or is joined to it, and never looks like an option itself unless
it is joined. A value that follows is looked at only when the next argument of the same place comes,
or the place ends.

Everything there is to say about an option stands in one table, `OptionInfo.all`, from which command
lines are read and help is written.
-/

namespace ChatStream

open Decimal

/-! ## Commands and options -/

/-- The commands by name. -/
inductive CommandName
  | ask
  | chat
  | health
  deriving DecidableEq, Repr

namespace CommandName

/-- The commands, in the order in which help lists them. -/
def all : List CommandName := [ask, chat, health]

/-- The word for a command. -/
def word : CommandName → String
  | ask => "ask"
  | chat => "chat"
  | health => "health"

/-- The command of a word. -/
def ofWord? (s : String) : Option CommandName := all.find? (·.word = s)

end CommandName

/-- The options that take a value. -/
inductive OptionName
  | config
  | endpoint
  | model
  | temperature
  | frameRate
  | logLevel
  | system
  | replay
  | chunkSize
  deriving DecidableEq, Repr

/-- What there is to say about an option. -/
structure OptionInfo where
  option : OptionName
  /-- The spelling after two hyphens. -/
  long : String
  /-- The spelling after one hyphen. -/
  short : Option Char := none
  /-- What stands for the value in a help text. -/
  value : String
  about : String
  /-- The variable that supplies the option when the command line does not. -/
  envVar : Option String := none
  /-- The value when nothing supplies one. -/
  preset : Option String := none

/-- The options, in the order in which help lists them. -/
def OptionInfo.all : List OptionInfo :=
  [{ option := .config, long := "config", short := some 'c', value := "FILE",
     about := "Path to configuration file", envVar := some "HEARTH_CONFIG" },
   { option := .system, long := "system", short := some 's', value := "SYSTEM",
     about := "System prompt for this message" },
   { option := .endpoint, long := "endpoint", value := "URL", about := "Streaming endpoint URL" },
   { option := .replay, long := "replay", value := "FILE",
     about := "Read the event stream from a capture file instead of the server" },
   { option := .chunkSize, long := "chunk-size", value := "CHUNK_SIZE",
     about := "Chunk size used when replaying a capture", preset := some "64" },
   { option := .model, long := "model", short := some 'm', value := "MODEL",
     about := "Model to ask" },
   { option := .temperature, long := "temperature", value := "TEMPERATURE",
     about := "Sampling temperature (0.0 - 2.0)" },
   { option := .frameRate, long := "frame-rate", value := "HZ",
     about := "Display frame rate in Hz" },
   { option := .logLevel, long := "log-level", short := some 'l', value := "LOG_LEVEL",
     about := "Log level (trace, debug, info, warn, error)",
     envVar := some "HEARTH_LOG_LEVEL", preset := some "warn" }]

namespace OptionName

/-- Whether the option belongs to the command that asks, and to no other place. -/
def isOfAsk : OptionName → Bool
  | .system => true
  | .replay => true
  | .chunkSize => true
  | _ => false

/-- The option with a long spelling. -/
def ofLong? (s : String) : Option OptionName :=
  (OptionInfo.all.find? (·.long = s)).map (·.option)

/-- The option with a short spelling. -/
def ofShort? (c : Char) : Option OptionName :=
  (OptionInfo.all.find? (·.short = some c)).map (·.option)

/-- Whether a text will do as the value of an option. -/
def accepts (o : OptionName) (v : String) : Bool :=
  match o with
  | .config => !v.isEmpty
  | .replay => !v.isEmpty
  | .temperature => (readFloat? v : Option Single).isSome
  | .frameRate => (readInteger? 0x100000000 v).isSome
  | .chunkSize => (readNat? 0x10000000000000000 v).isSome
  | _ => true

end OptionName

/-! ## Arguments -/

/-- An argument by its looks. -/
inductive Argument
  /-- `--name`, perhaps with `=value`. -/
  | long (name : String) (value : Option String)
  /-- `-x`, perhaps with what is written after it. -/
  | short (name : Char) (value : Option String)
  /-- `--` alone. -/
  | separator
  | word (s : String)
  deriving DecidableEq, Repr

/-- Looks at an argument. -/
def Argument.of (s : String) : Argument :=
  match s.toList with
  | ['-', '-'] => .separator
  | '-' :: '-' :: rest =>
    match rest.span (· ≠ '=') with
    | (name, _ :: value) => .long (String.ofList name) (some (String.ofList value))
    | (name, []) => .long (String.ofList name) none
  | '-' :: c :: rest =>
    .short c (match rest with
      | [] => none
      | '=' :: value => some (String.ofList value)
      | value => some (String.ofList value))
  | _ => .word s

/-- Options given in one place, with their values. -/
abbrev Given := List (OptionName × String)

/-- The value given for an option. -/
def Given.get? (g : Given) (o : OptionName) : Option String := (g.find? (·.1 = o)).map (·.2)

/-- Adds an option, once and with a value that will do. -/
def Given.add? (g : Given) (o : OptionName) (v : String) : Option Given :=
  if (g.get? o).isSome || !o.accepts v then none else some ((o, v) :: g)

/-- An option that is not done with. -/
inductive Waiting
  /-- Its value is to come. -/
  | forValue (o : OptionName)
  /-- Its value has come, and has not been looked at. -/
  | toLook (o : OptionName) (v : String)
  deriving DecidableEq, Repr

/-- What is known of the arguments of one place: after a command, or before any. -/
structure Place where
  command : Option CommandName
  given : Given := []
  waiting : Option Waiting := none
  words : List String := []
  deriving DecidableEq, Repr

namespace Place

/-- Is done with the waiting option. -/
def settle? (p : Place) : Option Place :=
  match p.waiting with
  | none => some p
  | some (.forValue _) => none
  | some (.toLook o v) => (p.given.add? o v).map ({ p with given := ·, waiting := none })

/-- Takes an option, with its value if that is joined to it. -/
def takeOption? (p : Place) (o? : Option OptionName) (value : Option String) : Option Place :=
  o?.bind fun o ↦
    if o.isOfAsk && p.command ≠ some .ask then none
    else
      match value with
      | some v => (p.given.add? o v).map ({ p with given := · })
      | none => some { p with waiting := some (.forValue o) }

/-- Takes a word, if the command has a use for one more. -/
def takeWord? (p : Place) (w : String) : Option Place :=
  if p.words.length < (if p.command = some .ask then 1 else 0) then
    some { p with words := p.words ++ [w] }
  else none

end Place

/-- What the arguments of one place came to. -/
inductive Scanned
  /-- All that is known of the place, and what follows a word that ends it. -/
  | ok (p : Place) (rest : List String)
  | version
  | help
  | wrong

/-- Scans the arguments of one place. Before the command the first word ends the place; after it,
words are gathered, and a separator makes words of all that follows. -/
def Place.scan (p : Place) : List String → Scanned
  | [] => .ok p []
  | a :: rest =>
    match p.waiting, Argument.of a with
    | some (.forValue o), .word v => scan { p with waiting := some (.toLook o v) } rest
    | _, .word w =>
      if p.command.isNone then .ok { p with words := [w] } rest
      else
        match p.settle?.bind (·.takeWord? w) with
        | some p => scan p rest
        | none => .wrong
    | _, .separator =>
      if p.command.isNone then .wrong else .ok { p with words := p.words ++ rest } []
    | _, .long name value =>
      match p.settle? with
      | none => .wrong
      | some p =>
        if name = "help" && value.isNone then .help
        else if name = "version" && value.isNone && p.command.isNone then .version
        else
          match p.takeOption? (OptionName.ofLong? name) value with
          | some p => scan p rest
          | none => .wrong
    | _, .short name value =>
      match p.settle? with
      | none => .wrong
      | some p =>
        if name = 'h' then .help
        else if name = 'V' && p.command.isNone then .version
        else
          match p.takeOption? (OptionName.ofShort? name) value with
          | some p => scan p rest
          | none => .wrong

/-! ## Invocations -/

/-- What the user wants done. -/
inductive Command
  /-- Send one message, or replay a captured answer in chunks of a size. -/
  | ask (message : String) (system : Option String) (replay : Option String) (chunkSize : Nat)
  | chat
  | health
  deriving DecidableEq, Repr

/-- A command with the options that concern the settings. -/
structure Invocation where
  command : Command
  /-- The settings file. -/
  configPath : Option String := none
  overrides : Overrides := {}
  deriving DecidableEq, Repr

/-- What help may be asked about. -/
inductive HelpTopic
  /-- The program as a whole. -/
  | program
  | command (name : CommandName)
  /-- The command that gives help. -/
  | help
  deriving DecidableEq, Repr

/-- What a command line comes to. -/
inductive CommandLine
  | run (i : Invocation)
  /-- The user asked for the version. -/
  | version
  | help (topic : HelpTopic)
  /-- The command line is wrong. -/
  | wrong
  deriving DecidableEq, Repr

/-- The variable that names the settings file. -/
def configVariable : String := "HEARTH_CONFIG"

/-- The invocation of a command with the settings options of two places, of which the second wins.
The settings file may be named by a variable; each place that does not name one looks at the
variable, and it must not be empty then. -/
def invocation? (env : Environment) (command : Command) (before after : Given) :
    Option Invocation :=
  let get? (o : OptionName) : Option String := (after.get? o).or (before.get? o)
  let named := env.get? configVariable
  let namesBoth := (before.get? .config).isSome && (after.get? .config).isSome
  if named = some "" && !namesBoth then none
  else
    some {
      command
      configPath := (get? .config).or named
      overrides := {
        endpoint := get? .endpoint
        model := get? .model
        temperature := (get? .temperature).bind readFloat?
        frameRate := (get? .frameRate).bind (readInteger? 0x100000000) } }

/-- The command that a name, its options and its words make up. A chunk size is of use only in a
replay. -/
def command? (name : CommandName) (given : Given) (words : List String) : Option Command :=
  match name, words with
  | .ask, [message] =>
    let replay := given.get? .replay
    let size := given.get? .chunkSize
    if size.isSome && replay.isNone then none
    else
      let size := (size.bind (readNat? 0x10000000000000000)).getD 64
      some (.ask message (given.get? .system) replay size)
  | .chat, [] => some .chat
  | .health, [] => some .health
  | _, _ => none

/-- What help is asked about by the words after `help`. -/
def helpTopic? : List String → Option HelpTopic
  | [] => some .program
  | [word] => if word = "help" then some .help else (CommandName.ofWord? word).map .command
  | _ => none

/-- Reads a command line. The place after the command is done with before the one in front of it,
so help that is asked for there is given whatever value waits here. -/
def CommandLine.parse (env : Environment) (args : List String) : CommandLine :=
  match ({ command := none } : Place).scan args with
  | .version => .version
  | .help => .help .program
  | .wrong => .wrong
  | .ok before rest =>
    match before.words with
    | ["help"] =>
      match helpTopic? rest with
      | some topic => .help topic
      | none => .wrong
    | [word] =>
      match CommandName.ofWord? word with
      | none => .wrong
      | some name =>
        match ({ command := some name } : Place).scan rest with
        | .help => .help (.command name)
        | .ok after _ =>
          let invocation : Option Invocation := do
            let after ← after.settle?
            let before ← before.settle?
            let command ← command? name after.given after.words
            invocation? env command before.given after.given
          match invocation with
          | some i => .run i
          | none => .wrong
        | _ => .wrong
    | _ => .wrong

end ChatStream
