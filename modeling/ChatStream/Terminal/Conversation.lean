import ChatStream.Session.Simulation
import ChatStream.Terminal.Screen

/-!
# Conversations on a terminal

`ask` sends one message and paints its answer. `chat` takes lines: some are commands, blank ones
are nothing, and each other one is a message whose answer is awaited before the next line is
looked at. Both run over a scripted transport at any pace of the clock. The pace decides into which
frames an answer is cut, but not what is left on the terminal.
-/

namespace ChatStream

open Text

/-! ## What the user types -/

/-- A line at the prompt. -/
inductive TypedLine
  | message (text : String)
  /-- Take up the offer of a summary. -/
  | summarize
  /-- Decline it. -/
  | keepHistory
  /-- Forget the conversation. -/
  | clear
  | quit
  | empty
  deriving DecidableEq, Repr

/-- Reads a line at the prompt. -/
def TypedLine.parse (line : String) : TypedLine :=
  let text := trim line
  if text.isEmpty then .empty
  else if text = "/quit" ∨ text = "/exit" then .quit
  else if text = "/summarize" then .summarize
  else if text = "/keep" then .keepHistory
  else if text = "/clear" then .clear
  else .message text

/-! ## Conversations -/

namespace Simulation

/-- A conversation at its start, with the history limits of the settings. -/
def conversation (config : Config) (transport : Scripted) (pace : List Nat) : Simulation where
  controller := .new Ledger.archive
    { history :=
        { maxMessages := config.historyMaxMessages, maxBytes := config.historyMaxBytes,
          contextLimit := config.contextLimit } }
    config "channel"
  transport := transport
  pace := pace

/-- Sends a prompt and awaits the end of its session. -/
def sendPrompt (s : Simulation) (p : Prompt) : Except BeginError (Simulation × SessionState) :=
  match s.controller.begin p with
  | .error e => .error e
  | .ok (c, _) =>
    let (s, _) := (s.put c).drive
    .ok (s, s.controller.state)

end Simulation

/-- A conversation with the terminal it is painted on. -/
structure Talk where
  simulation : Simulation
  screen : Screen := {}

/-- What is left of a conversation that is over. -/
structure Finished (α : Type) where
  result : α
  /-- What was written to the terminal. -/
  screen : Screen
  /-- The requests that were sent. -/
  requests : List Request

namespace Talk

/-- A conversation at its start. -/
def new (config : Config) (transport : Scripted) (pace : List Nat) : Talk where
  simulation := .conversation config transport pace

/-- Paints what the controller has shown since the last time. -/
def flush (t : Talk) : Talk :=
  let c := t.simulation.controller
  { simulation := { t.simulation with controller := { c with deeds := [] } }
    screen := t.screen.paintAll c.events }

/-- Tells the user something on standard error, beside the view. -/
def say (t : Talk) (text : String) : Talk :=
  { t with screen := { t.screen with err := t.screen.err ++ text ++ "\n" } }

/-- Changes the controller, and paints what it shows. -/
def onController (t : Talk) (change : Controller Ledger → Controller Ledger) : Talk :=
  flush { t with simulation := t.simulation.put (change t.simulation.controller) }

/-- Sends a prompt, awaits the end of its session and paints it. -/
def sendPrompt (t : Talk) (p : Prompt) : Except BeginError (Talk × SessionState) :=
  (t.simulation.sendPrompt p).map fun (s, state) ↦ (flush { t with simulation := s }, state)

/-- Ends the conversation. -/
def close {α : Type} (t : Talk) (result : α) : Finished α :=
  let t := t.onController .drop
  { result, screen := t.screen, requests := t.simulation.transport.requests }

end Talk

/-- Sends one message. -/
def ask (config : Config) (transport : Scripted) (p : Prompt) (pace : List Nat := []) :
    Finished (Except BeginError SessionState) :=
  let t := Talk.new config transport pace
  match t.sendPrompt p with
  | .error e => t.close (.error e)
  | .ok (t, state) => t.close (.ok state)

/-- Forgets the conversation: its records, and the request for a summary. -/
def forget (c : Controller Ledger) : Controller Ledger :=
  let c := { c with store := { c.store with history := c.store.history.clear } }
  c.declineSummary.measure.1

/-- Takes one line of a chat; nothing when the chat is to end. -/
def chatLine (t : Talk) (line : String) : Option Talk :=
  match TypedLine.parse line with
  | .empty => some t
  | .quit => none
  | .summarize =>
    some ((t.onController .acceptSummary).say
      "The next message will ask the model to summarize first.")
  | .keepHistory => some (t.onController .declineSummary)
  | .clear => some ((t.onController forget).say "Conversation cleared.")
  | .message text =>
    match t.sendPrompt { message := text } with
    | .ok (t, _) => some t
    | .error e => some (t.say e.message)

/-- Takes the lines of a chat. A line that is no text (`none`) ends it badly. -/
def chatLines (t : Talk) : List (Option String) → Talk × Bool
  | [] => (t, true)
  | none :: _ => (t, false)
  | some line :: rest =>
    match chatLine t line with
    | some t => chatLines t rest
    | none => (t, true)

/-- Cuts input into lines: a line ends at a line feed, and a carriage return before that does not
count. What follows the last line feed is a line unless it is empty. -/
def inputLines (bytes : Bytes) : List Bytes :=
  go [] [] bytes
where
  /-- Gathers the current line and the lines before it, both newest first. -/
  go (lines : List Bytes) (line : Bytes) : Bytes → List Bytes
    | [] => (if line.isEmpty then lines else line.reverse :: lines).reverse
    | 0x0A :: rest =>
      let line := match line with
        | 0x0D :: line => line
        | line => line
      go (line.reverse :: lines) [] rest
    | b :: rest => go lines (b :: line) rest

/-- A chat over the whole of its input. Tells whether all of the input could be read. -/
def chat (config : Config) (transport : Scripted) (input : Bytes) (pace : List Nat := []) :
    Finished Bool :=
  let (t, readAll) := chatLines (.new config transport pace) ((inputLines input).map Utf8.decode?)
  t.close readAll

end ChatStream
