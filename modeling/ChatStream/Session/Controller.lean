import ChatStream.Config.Basic
import ChatStream.Session.Archive
import ChatStream.Session.View
import ChatStream.Transport.Stream
import ChatStream.Wire.Lines

/-!
# The session controller

A controller takes one message after another to the server and turns each answer into text for a
view and records for an archive. It is a state machine without a world: time, the transport and
whoever cancels are outside, and tell it what happened. All that it does outside itself is written
down, in order, as `Deed`s.

## A session

A session begins unopened, with its request; it is opening once the request is handed out, reading
once a stream is open, and ended in one of three ways. There is one road to the end, `finish`: it
gives the view the rest of the text, hands in the records, announces the new state and checks the
budget, in that order.

## A step

A step of a session waits for at most one thing. `turn` says for what: the answer to its request,
or a due tick or the next item of its stream, of which the tick comes first. Whatever it is, the
step looks at the token again before it touches anything, so what was under way when the session
was cancelled is dropped.
-/

namespace ChatStream

open Decimal Text

/-! ## Prompts -/

/-- A message to be answered. -/
structure Prompt where
  message : String
  /-- The system instruction for this message alone. -/
  system : Option String := none
  attachments : List Attachment := []
  deriving DecidableEq, Repr

/-- Why a message was not taken. -/
inductive BeginError
  | emptyMessage
  | invalidRequest (reason : String)
  deriving DecidableEq, Repr

/-- What the user is told. -/
def BeginError.message : BeginError → String
  | .emptyMessage => "Message is empty"
  | .invalidRequest reason => "Invalid request: " ++ reason

/-! ## Sessions -/

/-- How a session ended. -/
inductive Ending
  | completed
  | errored (failure : Failure)
  | cancelled
  deriving DecidableEq, Repr

/-- The state of a session that ended so. -/
def Ending.state : Ending → SessionState
  | .completed => .completed
  | .errored _ => .errored
  | .cancelled => .cancelled

/-- Where a session stands, with what it holds there. -/
inductive Phase
  /-- The request waits to be handed out. -/
  | unopened (request : Request)
  /-- The request is handed out, and no stream is open yet. -/
  | opening
  /-- The stream with this number is being read. -/
  | reading (stream : Nat)
  | ended (e : Ending)

/-- One message and its answer so far. -/
structure Session where
  /-- The number of the session. -/
  id : Nat
  model : String
  /-- The message, for the record. -/
  message : String
  phase : Phase
  lines : LineReader := .new
  text : RunningText := {}
  schedule : PaintSchedule
  /-- Bytes read from the stream. -/
  bytesRead : Nat := 0

namespace Session

/-- The state of a session. -/
def state (s : Session) : SessionState :=
  match s.phase with
  | .ended e => e.state
  | _ => .streaming

/-- Whether the session has not ended. -/
def isLive (s : Session) : Bool :=
  match s.phase with
  | .ended _ => false
  | _ => true

/-- Why the session failed, if it did. -/
def failure (s : Session) : Option Failure :=
  match s.phase with
  | .ended (.errored f) => some f
  | _ => none

/-- The stream being read. -/
def stream? (s : Session) : Option Nat :=
  match s.phase with
  | .reading n => some n
  | _ => none

/-- A session has a failure if and only if it failed: a phase has no room for anything else. -/
theorem isSome_failure_iff (s : Session) : s.failure.isSome = true ↔ s.state = .errored := by
  rw [failure, state]
  cases s.phase with
  | ended e => cases e <;> simp [Ending.state]
  | _ => simp

/-- A session that is over has no stream. -/
theorem stream?_eq_none {s : Session} (h : s.state ≠ .streaming) : s.stream? = none := by
  rw [state] at h
  rw [stream?]
  cases hp : s.phase with
  | reading n =>
    rw [hp] at h
    exact absurd rfl h
  | _ => rfl

end Session

/-! ## Controllers -/

/-- One thing that a controller does outside itself. -/
inductive Deed
  /-- The view is told something. -/
  | shown (e : ViewEvent)
  /-- A record is handed in; it may be refused. -/
  | committed (r : Record) (refusal : Option Refusal)
  /-- A request is handed to the transport. -/
  | asked (r : Request)
  /-- The usage of a conversation of that many records is read. -/
  | measured (count : Nat)
  | logged (l : LogLine)

/-- The controller of one conversation. -/
structure Controller (σ : Type) where
  archive : Archive σ
  /-- The state of the archive. -/
  store : σ
  config : Config
  /-- The name of the transport, for the log. -/
  transportName : String
  budget : Budget
  /-- The current session, or the last one. -/
  session : Option Session := none
  /-- The sessions whose tokens are cancelled. -/
  cancelledTokens : List Nat := []
  /-- Sessions begun so far. -/
  sessionsBegun : Nat := 0
  /-- Records made so far. -/
  recordsMade : Nat := 0
  /-- What the clock shows. -/
  now : Instant := 0
  /-- Whether anyone is there to be shown events. -/
  watched : Bool := true
  /-- All that was done, oldest first. -/
  deeds : List Deed := []

/-- What a step came to. -/
inductive StepResult
  | opened
  | painted
  /-- A chunk completed so many lines. -/
  | received (lines : Nat)
  | finished (state : SessionState)
  deriving DecidableEq, Repr

/-- What a step waits for. -/
inductive Turn (σ : Type)
  /-- No session is streaming. -/
  | idle
  /-- The step is over without waiting. -/
  | over (c : Controller σ) (outcome : StepResult)
  /-- The request is handed out, and its answer is awaited. -/
  | opening (c : Controller σ) (request : Request)
  /-- The tick is awaited, if there is one, and the next item of the stream. -/
  | reading (stream : Nat) (tick : Option Tick)

namespace Controller

variable {σ : Type}

/-- A controller that has had no session. -/
def new (archive : Archive σ) (store : σ) (config : Config) (transportName : String) :
    Controller σ where
  archive := archive
  store := store
  config := config
  transportName := transportName
  budget := .new config.contextLimit config.nearFraction

/-! ### Looking at a controller -/

/-- The state of the current session. -/
def state (c : Controller σ) : SessionState :=
  match c.session with
  | some s => s.state
  | none => .idle

/-- Whether a session is streaming. -/
def isStreaming (c : Controller σ) : Bool := c.state = .streaming

/-- The text of the current session. -/
def answerText (c : Controller σ) : String :=
  match c.session with
  | some s => s.text.committed
  | none => ""

/-- Whether the token of a session is cancelled. -/
def isCancelled (c : Controller σ) (session : Nat) : Bool := c.cancelledTokens.contains session

/-- The events that the view was shown. -/
def events (c : Controller σ) : List ViewEvent :=
  c.deeds.filterMap fun
    | .shown e => some e
    | _ => none

/-- The requests that were handed out. -/
def requests (c : Controller σ) : List Request :=
  c.deeds.filterMap fun
    | .asked r => some r
    | _ => none

/-- What was logged. -/
def log (c : Controller σ) : List LogLine :=
  c.deeds.filterMap fun
    | .logged l => some l
    | _ => none

/-! ### Single deeds -/

/-- Does something outside. -/
def act (c : Controller σ) (d : Deed) : Controller σ := { c with deeds := c.deeds ++ [d] }

/-- Logs a line. -/
def note (c : Controller σ) (l : LogLine) : Controller σ := c.act (.logged l)

/-- Logs lines. -/
def notes (c : Controller σ) (ls : List LogLine) : Controller σ := ls.foldl note c

/-- Shows the view an event, if anyone is there to see it. -/
def tell (c : Controller σ) (e : ViewEvent) : Controller σ :=
  if c.watched then c.act (.shown e)
  else c.note { level := .trace, message := "View receiver dropped, discarding event" }

/-- Cancels the token of a session, by whoever holds its handle. -/
def cancelToken (c : Controller σ) (session : Nat) : Controller σ :=
  if c.isCancelled session then c
  else { c with cancelledTokens := session :: c.cancelledTokens }

/-- Changes the current session. -/
def onSession (c : Controller σ) (change : Session → Session) : Controller σ :=
  { c with session := c.session.map change }

/-! ### The budget -/

/-- Measures the conversation. Shows and returns the notice that is due. -/
def measure (c : Controller σ) : Controller σ × Option NearLimit :=
  let count := c.archive.size c.store
  let (store, usage) := c.archive.usage c.store count
  let (budget, notice) := c.budget.observe usage
  let c := { c with store, budget }.act (.measured count)
  match notice with
  | some n => ((c.note n.log).tell (.budgetNearLimit n.tokens n.limit), some n)
  | none => (c, none)

/-- The user takes up the offer of a summary with the next message. -/
def acceptSummary (c : Controller σ) : Controller σ :=
  { c with budget := c.budget.requestSummary }.note
    { level := .info, message := "Summarization accepted for next message" }

/-- The user declines the offer, or takes it back. -/
def declineSummary (c : Controller σ) : Controller σ :=
  { c with budget := c.budget.clearSummary }

/-! ### Records -/

/-- Makes a record of a message. -/
def makeRecord (c : Controller σ) (role : Role) (content : String) (model : Option String) :
    Controller σ × Record :=
  ({ c with recordsMade := c.recordsMade + 1 },
   { id := messageId c.recordsMade, role, content, timestamp := (c.now / nanosPerMilli : Nat),
     model, tokenCount := some (tokenEstimate content) })

/-- Hands in a record. A refusal is logged and shown, and changes nothing else. -/
def commit (c : Controller σ) (r : Record) : Controller σ :=
  let receipt := c.archive.commit c.store r
  let c := ({ c with store := receipt.state }.notes receipt.log).act (.committed r receipt.refusal)
  match receipt.refusal with
  | none => c
  | some e =>
    (c.note { level := .warn, message := "Failed to persist message",
              fields := [("error", e.message), ("role", r.role.name)] }).tell
      (.notice .warning ("Could not save message: " ++ e.message))

/-- Whether the answer of a session that ended so is kept. -/
def keepsAnswer (config : Config) (e : Ending) (text : String) : Bool :=
  match e with
  | .completed => true
  | .errored _ => !text.isEmpty
  | .cancelled => config.keepCancelled && !text.isEmpty

/-- Hands in the records of a session that ended: its message, and its answer if that is kept. -/
def keepRecords (c : Controller σ) (s : Session) (e : Ending) : Controller σ :=
  let (c, user) := c.makeRecord .user s.message none
  if keepsAnswer c.config e s.text.committed then
    let (c, answer) := c.makeRecord .assistant s.text.committed (some s.model)
    (c.commit user).commit answer
  else c.commit user

/-! ### The end of a session -/

/-- What is logged when a session ends. -/
def endLog (s : Session) (e : Ending) : LogLine :=
  match e with
  | .errored f =>
    { level := .warn, message := "Stream session failed",
      fields := [("error", f.message), ("chars", natText s.text.committedSize)] }
  | e =>
    { level := .info, message := "Stream session ended",
      fields := [("state", e.state.name), ("chars", natText s.text.committedSize),
        ("bytes", natText s.bytesRead)] }

/-- Ends the current session, if it is live. -/
def finish (c : Controller σ) (e : Ending) : Controller σ :=
  match c.session with
  | none => c
  | some s =>
    if !s.isLive then c
    else
      let c := if e = .cancelled then c.cancelToken s.id else c
      let flushLog := s.schedule.finishLog e.state
      let (schedule, text, update) := s.schedule.finish s.text e.state
      let s := { s with phase := .ended e, lines := s.lines.clear, schedule, text }
      let c := ({ c with session := some s }.notes flushLog).note (endLog s e)
      let c := match update with
        | some u => c.tell (.render s.id u)
        | none => c
      let c := (c.keepRecords s e).tell (.stateChanged s.id e.state)
      let c := match e with
        | .errored f => c.tell (.notice .error f.message)
        | _ => c
      c.measure.1

/-- Ends the current session as failed. -/
def fail (c : Controller σ) (f : Failure) : Controller σ := c.finish (.errored f)

/-! ### The beginning of a session -/

/-- The request for a prompt, with the directive to summarize when that was asked for. -/
def buildRequest (config : Config) (p : Prompt) (summarize : Bool) : Request :=
  let r : Request :=
    { message := p.message, model := config.model, sampling := config.sampling,
      system := p.system.or config.systemPrompt, attachments := p.attachments }
  if summarize then r.appendDirective config.directive else r

/-- Begins a session, and returns its number. A session that is still streaming is cancelled first.
A prompt that cannot be sent changes nothing. -/
def begin (c : Controller σ) (p : Prompt) : Except BeginError (Controller σ × Nat) :=
  if isBlankText p.message then .error .emptyMessage
  else if isBlankText c.config.model then .error (.invalidRequest "no model configured")
  else
    let c := if c.isStreaming then
        (c.note { level := .debug,
                  message := "New message while streaming, cancelling previous session" }).finish
          .cancelled
      else c
    let (budget, summarize) := c.budget.takeSummary
    let request := buildRequest c.config p summarize
    let id := c.sessionsBegun
    let s : Session :=
      { id, model := request.model, message := p.message, phase := .unopened request,
        schedule := .new (.new c.now c.config.paintInterval) }
    let c := { c with budget, session := some s, sessionsBegun := id + 1 }
    let c := c.note
      { level := .info, message := "Starting stream session",
        fields := [("model", request.model), ("transport", c.transportName),
          ("summarize", boolField summarize)] }
    .ok ((c.tell (.sessionStarted id request.model)).tell (.stateChanged id .streaming), id)

/-! ### Lines and chunks -/

/-- Takes one line of the current session, which may end it. -/
def takeLine (c : Controller σ) (line : String) : Controller σ :=
  let reading := c.config.wire.read line
  let event := reading.toEvent
  let c := c.notes reading.log
  let c := match event.text with
    | none => c
    | some text =>
      c.onSession fun s ↦
        let s := { s with text := s.text.apply text }
        if event.isTerminal then s else { s with schedule := (s.schedule.noteFragment c.now).1 }
  match event with
  | .done _ => c.finish .completed
  | .error message _ => c.fail (.server message)
  | _ => c

/-- Takes lines as long as the session is live. -/
def takeLines (c : Controller σ) : List String → Controller σ
  | [] => c
  | line :: rest =>
    let c := c.takeLine line
    if c.isStreaming then c.takeLines rest else c

/-- The outcome of a step that took `lines` lines, unless they ended the session. -/
def outcomeAfter (c : Controller σ) (lines : Nat) : StepResult :=
  if c.isStreaming then .received lines else .finished c.state

/-- Takes a chunk. -/
def takeChunk (c : Controller σ) (chunk : Bytes) : Controller σ × StepResult :=
  match c.session with
  | none => (c, .received 0)
  | some s =>
    let (reader, lines) := s.lines.push chunk
    let s := { s with lines := reader, bytesRead := s.bytesRead + chunk.length }
    let c := { c with session := some s }.takeLines lines
    (c, c.outcomeAfter lines.length)

/-- Takes the end of the stream. A last line without its end still counts; a stream that said
nothing of an end has ended well. -/
def takeEnd (c : Controller σ) : Controller σ × StepResult :=
  match c.session with
  | none => (c, .finished .completed)
  | some s =>
    let (lines, last) := s.lines.finish
    let c := { c with session := some { s with lines } }.takeLines last.toList
    if c.isStreaming then
      ((c.note { level := .debug, message := "Stream ended without a completion event" }).finish
        .completed, .finished .completed)
    else (c, .finished c.state)

/-! ### Steps -/

/-- Ends a step in the cancelling of the session. -/
def endCancelled (c : Controller σ) : Controller σ × StepResult :=
  (c.finish .cancelled, .finished .cancelled)

/-- Ends a step in the failing of the session. -/
def endFailed (c : Controller σ) (e : TransportError) : Controller σ × StepResult :=
  (c.fail (.transport e), .finished .errored)

/-- The failure of a session whose request was handed out in a step that was given up. -/
def neverOpened : TransportError := .closed "stream was never opened"

/-- What the next step waits for. -/
def turn (c : Controller σ) : Turn σ :=
  match c.session with
  | none => .idle
  | some s =>
    match s.phase with
    | .ended _ => .idle
    | phase =>
      if c.isCancelled s.id then
        let (c, o) := c.endCancelled
        .over c o
      else
        match phase with
        | .unopened request =>
          .opening ({ c with session := some { s with phase := .opening } }.act (.asked request))
            request
        | .reading stream => .reading stream s.schedule.waiting
        | _ =>
          let (c, o) := c.endFailed neverOpened
          .over c o

/-- Whether the token of the current session is cancelled. -/
def tokenCancelled (c : Controller σ) : Bool :=
  match c.session with
  | some s => c.isCancelled s.id
  | none => false

/-- Ends a step that waited for a stream to open and found the session cancelled. -/
def cancelledOpening (c : Controller σ) : Controller σ × StepResult :=
  (c.note { level := .debug, message := "Cancelled while opening stream" }).endCancelled

/-- The transport has answered the request: with the number of a stream, or not at all. -/
def onAnswer (c : Controller σ) (answer : Except TransportError Nat) :
    Controller σ × StepResult :=
  if c.tokenCancelled then c.cancelledOpening
  else
    match answer with
    | .ok stream => (c.onSession fun s ↦ { s with phase := .reading stream }, .opened)
    | .error e => c.endFailed e

/-- The awaited tick is due. -/
def onTick (c : Controller σ) (id : Nat) : Controller σ × StepResult :=
  if c.tokenCancelled then c.endCancelled
  else
    match c.session with
    | none => (c, .painted)
    | some s =>
      let (schedule, text, update) := s.schedule.fire id s.text
      let c := { c with session := some { s with schedule, text } }
      match update with
      | some u => (c.tell (.render s.id u), .painted)
      | none => (c, .painted)

/-- The stream has an item, or `none` at its end. -/
def onItem (c : Controller σ) (item : Option Item) : Controller σ × StepResult :=
  if c.tokenCancelled then
    match item with
    | some (.ok chunk) =>
      (c.note { level := .debug, message := "Discarding chunk received after cancellation",
                fields := [("bytes", natText chunk.length)] }).endCancelled
    | _ => c.endCancelled
  else
    match item with
    | some (.ok chunk) => c.takeChunk chunk
    | some (.error e) => c.endFailed e
    | none => c.takeEnd

/-! ### Cancelling -/

/-- Cancels the current session. Tells whether there was one to cancel. -/
def cancel (c : Controller σ) : Controller σ × Bool :=
  if c.isStreaming then (c.finish .cancelled, true) else (c, false)

/-- Gives the controller up, which cancels the current session. -/
def drop (c : Controller σ) : Controller σ :=
  if c.isStreaming then
    (c.note { level := .debug, message := "Controller dropped while streaming" }).finish .cancelled
  else c

end Controller

end ChatStream
