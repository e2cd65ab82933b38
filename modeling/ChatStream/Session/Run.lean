import ChatStream.Session.Controller

/-!
# What can be done with a controller

A controller says what a step waits for, and takes what ends the wait. Here the pieces are put
together to whole steps, and steps with everything else that can be done with a controller to runs.

## The wait of a step

While a step waits, its controller can do nothing, but handles are cancelled and the clock goes on.
A `Wait` says what happens meanwhile and what ends the wait, so that a step is a function of the
controller and its wait. A wait that brings nothing ends with the cancelling of the session if its
token was cancelled meanwhile; otherwise the step is given up, and the controller stays where its
turn has put it.

## Runs

A run is any list of operations from a new controller on. A handle exists only for a session that
was begun; the archive is shared, so it may change between two operations.
-/

namespace ChatStream

/-- What ends the wait of a step. -/
inductive Wake
  /-- The transport answers the request. -/
  | answer (a : Except TransportError Nat)
  /-- The awaited tick is due. -/
  | tick
  /-- The stream has an item, or `none` at its end. -/
  | item (i : Option Item)
  /-- The stream has a chunk, and another thread cancels the token of the session when so many of
  the lines are taken. -/
  | tornChunk (chunk : Bytes) (taken : Nat)
  /-- Nothing that the step waits for. -/
  | nothing

/-- What happens while a step waits. -/
structure Wait where
  /-- The sessions whose handles are cancelled meanwhile. -/
  cancelled : List Nat := []
  /-- What the clock shows when the wait is over. -/
  now : Instant
  wake : Wake

/-- One thing done with a controller, or around it. -/
inductive Op (σ : Type)
  | begin (p : Prompt)
  /-- Begins a session and takes its first step. -/
  | start (p : Prompt) (w : Wait)
  | step (w : Wait)
  | cancel
  /-- The handle of a session is cancelled. -/
  | cancelHandle (session : Nat)
  | acceptSummary
  | declineSummary
  /-- Checks the budget. -/
  | measure
  | drop
  /-- Time passes. -/
  | passTime (now : Instant)
  /-- The archive changes under the controller. -/
  | changeStore (change : σ → σ)

/-- Whether an operation is a check of the budget. -/
def Op.isMeasure {σ : Type} : Op σ → Bool
  | .measure => true
  | _ => false

namespace Controller

variable {σ : Type}

/-! ### Steps -/

/-- Cancels the handle of a session, which only a session that was begun has. -/
def cancelHandle (c : Controller σ) (session : Nat) : Controller σ :=
  if session < c.sessionsBegun then c.cancelToken session else c

/-- Lets the time of a wait pass. -/
def pass (c : Controller σ) (w : Wait) : Controller σ :=
  { w.cancelled.foldl cancelHandle c with now := w.now }

/-- Takes a chunk during which the token is cancelled. With lines left the session ends there; with
none left nobody notices before the next step. -/
def onTornChunk (c : Controller σ) (chunk : Bytes) (taken : Nat) : Controller σ × StepResult :=
  match c.session with
  | none => c.onItem (some (.ok chunk))
  | some s =>
    let (reader, lines) := s.lines.push chunk
    if c.tokenCancelled || lines.length ≤ taken then c.onItem (some (.ok chunk))
    else
      let s := { s with lines := reader, bytesRead := s.bytesRead + chunk.length }
      let c := { c with session := some s }.takeLines (lines.take taken)
      if c.isStreaming then
        (c.note { level := .debug, message := "Cancelled mid-chunk, discarding remaining lines",
                  fields := [("discarded", Decimal.natText (lines.length - taken))] }).endCancelled
      else (c, .finished c.state)

/-- Ends a wait that brought nothing to the step. -/
def endWait (c : Controller σ) (r : Controller σ × StepResult) :
    Controller σ × Option StepResult :=
  if c.tokenCancelled then (r.1, some r.2) else (c, none)

/-- Takes a step with the given wait. Without a result no session is streaming, or the step is
given up. -/
def step (c : Controller σ) (w : Wait) : Controller σ × Option StepResult :=
  match c.turn with
  | .idle => (c, none)
  | .over c o => (c, some o)
  | .opening c _ =>
    let c := c.pass w
    match w.wake with
    | .answer a =>
      let (c, o) := c.onAnswer a
      (c, some o)
    | _ => c.endWait c.cancelledOpening
  | .reading _ tick =>
    let c := c.pass w
    match w.wake, tick with
    | .item i, _ =>
      let (c, o) := c.onItem i
      (c, some o)
    | .tornChunk chunk taken, _ =>
      let (c, o) := c.onTornChunk chunk taken
      (c, some o)
    | .tick, some t =>
      let (c, o) := c.onTick t.id
      (c, some o)
    | _, _ => c.endWait c.endCancelled

/-- Begins a session and takes its first step. -/
def start (c : Controller σ) (p : Prompt) (w : Wait) : Except BeginError (Controller σ × Nat) :=
  match c.begin p with
  | .ok (c, id) => .ok ((c.step w).1, id)
  | .error e => .error e

/-! ### Runs -/

/-- Does one thing. A prompt that cannot be sent changes nothing. -/
def apply (c : Controller σ) : Op σ → Controller σ
  | .begin p =>
    match c.begin p with
    | .ok (c, _) => c
    | .error _ => c
  | .start p w =>
    match c.start p w with
    | .ok (c, _) => c
    | .error _ => c
  | .step w => (c.step w).1
  | .cancel => c.cancel.1
  | .cancelHandle session => c.cancelHandle session
  | .acceptSummary => c.acceptSummary
  | .declineSummary => c.declineSummary
  | .measure => c.measure.1
  | .drop => c.drop
  | .passTime now => { c with now }
  | .changeStore change => { c with store := change c.store }

/-- Does one thing after another. -/
def run (c : Controller σ) (ops : List (Op σ)) : Controller σ := ops.foldl apply c

/-- The controllers that a run from a new controller can come to. -/
def Reached (c : Controller σ) : Prop :=
  ∃ (archive : Archive σ) (store : σ) (config : Config) (transportName : String)
    (ops : List (Op σ)), c = (new archive store config transportName).run ops

end Controller

end ChatStream
