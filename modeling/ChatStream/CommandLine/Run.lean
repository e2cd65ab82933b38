import ChatStream.CommandLine.Usage
import ChatStream.Terminal.Conversation
import ChatStream.Transport.Http

/-!
# Running a command line

Everything that the program reads from outside is handed to it as `Surroundings`; the answer is an
`Outcome`, what the program writes and its exit status. Nothing else happens.

A file that does not exist is no settings file, which is no fault; a capture must exist.
-/

namespace ChatStream

open Decimal Text

/-! ## Files -/

/-- What is found at a path. -/
inductive FileContent
  /-- Nothing. -/
  | absent (why : String)
  /-- Something that cannot be read. -/
  | unreadable (why : String)
  | bytes (b : Bytes)
  deriving DecidableEq, Repr

namespace FileContent

/-- What is found under a name that nothing has. -/
def missing : FileContent := .absent "No such file or directory (os error 2)"

/-- What is found on a path that leads through a file. -/
def throughFile : FileContent := .absent "Not a directory (os error 20)"

/-- What is found under a name that nothing can have. -/
def nameTooLong : FileContent := .absent "File name too long (os error 36)"

/-- What a directory is to a reader of files. -/
def directory : FileContent := .unreadable "Is a directory (os error 21)"

/-- What a file is to a reader who may not see it. -/
def forbidden : FileContent := .unreadable "Permission denied (os error 13)"

/-- Why a file could not be read. -/
def trouble? : FileContent → Option String
  | .absent why => some why
  | .unreadable why => some why
  | .bytes _ => none

/-- What a settings file turns out to be. -/
def state : FileContent → FileState
  | .absent _ => .missing
  | .unreadable _ => .unreadable
  | .bytes b =>
    match Utf8.decode? b with
    | some s => .text s
    | none => .unreadable

end FileContent

/-! ## Outcomes -/

/-- What a program leaves behind. -/
structure Outcome where
  /-- The exit status. -/
  status : Nat
  out : String := ""
  err : String := ""
  deriving DecidableEq, Repr

/-- The exit status for a session that ended so. -/
def exitStatus : SessionState → Nat
  | .completed => 0
  | .cancelled => 130
  | _ => 1

/-- The exit status for a wrong command line. -/
def wrongUsageStatus : Nat := 2

/-- A failure as it is reported: what failed, and what caused it. Several causes are numbered. -/
def report (what : String) (causes : List String) : String :=
  let numbered := causes.zipIdx.map fun (cause, i) ↦
    "    " ++ natText i ++ ": " ++ hang 7 cause ++ "\n"
  "Error: " ++ what ++ "\n" ++
    match causes with
    | [] => ""
    | [cause] => "\nCaused by:\n    " ++ hang 4 cause ++ "\n"
    | _ => "\nCaused by:\n" ++ String.join numbered

/-- A failed run. -/
def failed (what : String) (causes : List String) (screen : Screen := {}) : Outcome :=
  { status := 1, out := screen.out, err := screen.err ++ report what causes }

/-! ## Runs -/

/-- The world of an invocation. -/
structure Surroundings where
  env : Environment
  /-- The file system. -/
  file : String → FileContent
  input : Bytes := []
  /-- The server's answers to the requests for answers, as far as it can be reached. -/
  server : List Reply := []
  /-- Whether the server can be reached. -/
  reachable : Bool := false

namespace Invocation

/-- The settings of an invocation, or what is reported instead. -/
def resolve (i : Invocation) (w : Surroundings) : Except Outcome Config :=
  let content := i.configPath.map w.file
  match Config.load (content.map FileContent.state) w.env with
  | .error .read =>
    let why := (content.bind FileContent.trouble?).getD "stream did not contain valid UTF-8"
    .error (failed "Failed to load configuration"
      ["Failed to read config file at " ++ i.configPath.getD "" ++ ": " ++ why, why])
  | .error .parse =>
    .error (failed "Failed to load configuration"
      ["Failed to parse TOML config: TOML parse error", "TOML parse error"])
  | .ok (c, _) =>
    let c := i.overrides.apply c
    match c.validate with
    | .ok () => .ok c
    | .error f => .error (failed "Invalid configuration" [f.message])

/-- A script of what a server answers. A server that gives no further answer cannot be reached. -/
def serverScript (c : Config) (replies : List Reply) : Scripted :=
  replies.foldl (fun (t : Scripted) r ↦
    match openHttp c.endpoint false (some r) with
    | .ok items => let (t, n) := t.addPipe { queue := items }; t.addAnswer (.stream n)
    | .error e => t.addRejection e)
    { afterwards := unreachable c.endpoint }

/-- The greeting of a chat. -/
def greeting (c : Config) : String :=
  "Chatting with " ++ c.model ++ " (" ++ c.endpoint ++ "). /summarize, /keep, /clear, /quit " ++
    "(or Ctrl-D). Ctrl-C stops an answer or leaves at the prompt.\n"

/-- Sends one message and reports on it. -/
def runAsk (c : Config) (t : Scripted) (p : Prompt) : Outcome :=
  let f := ChatStream.ask c t p
  match f.result with
  | .ok state => { status := exitStatus state, out := f.screen.out, err := f.screen.err }
  | .error e => failed e.message [] f.screen

/-- Chats over the whole of the input. -/
def runChat (c : Config) (t : Scripted) (input : Bytes) : Outcome :=
  let f := ChatStream.chat c t input
  let err := greeting c ++ f.screen.err
  if f.result then { status := 0, out := f.screen.out, err }
  else { status := 1, out := f.screen.out, err := err ++ report "Failed to read input" [] }

/-- Runs an invocation. -/
def run (i : Invocation) (w : Surroundings) : Outcome :=
  match i.resolve w with
  | .error o => o
  | .ok c =>
    match i.command with
    | .ask message system replay chunkSize =>
      let p : Prompt := { message, system }
      match replay with
      | none => runAsk c (serverScript c w.server) p
      | some path =>
        match w.file path with
        | .bytes b => runAsk c (.ofWire b chunkSize) p
        | content => failed ("Failed to read capture " ++ path) [content.trouble?.getD ""]
    | .chat => runChat c (serverScript c w.server) w.input
    | .health =>
      if w.reachable then { status := 0, out := c.endpoint ++ " is reachable\n" }
      else { status := 1, err := c.endpoint ++ " is not reachable\n" }

/-- The files that an invocation may look at. -/
def paths (i : Invocation) : List String :=
  i.configPath.toList ++
    match i.command with
    | .ask _ _ (some path) _ => [path]
    | _ => []

/-- Whether an invocation reads the standard input. -/
def readsInput (i : Invocation) : Bool := i.command = .chat

end Invocation

/-- The outcome of a command line. -/
def CommandLine.outcome (w : Surroundings) : CommandLine → Outcome
  | .run i => i.run w
  | .version => { status := 0, out := versionText }
  | .help topic => { status := 0, out := w.env.present (helpText w.env topic) }
  | .wrong => { status := wrongUsageStatus, err := "error: wrong command line, try --help\n" }

end ChatStream
