import ChatStream.Session.Controller
import ChatStream.Transport.Scripted

/-!
# A controller on a virtual clock

A simulation gives a controller a world: a scripted transport, an archive that may refuse records,
and a clock that moves only when told to, or to the next thing that is due. What shall happen later
is written into an agenda, and all that is due at one time happens together. Nothing here is left to
chance, so a simulation is a function of its script.

While a drive takes one step after another, the clock moves at the pace of the simulation and, where
a step has to wait, to the next thing that is due. A step that would have to wait can also be given
up. That does no harm to a session that is reading; one that was opening has lost its request.
-/

namespace ChatStream

/-! ## The archive -/

/-- A history whose commits can be refused, and whose usage can be laid down. -/
structure Ledger where
  history : History
  /-- Commits so far, the refused ones included. -/
  commits : Nat := 0
  /-- The commits to refuse, counted from zero. -/
  refusals : List Nat := []
  /-- Why they are refused. -/
  reason : String := "disk full"
  /-- The readings to give one after another, the last one for ever; without them the history is
  measured. -/
  readings : Option (List Usage) := none

namespace Ledger

/-- Hands in a record. -/
def commit (l : Ledger) (r : Record) : Receipt Ledger :=
  let l' := { l with commits := l.commits + 1 }
  if l.refusals.contains l.commits then { state := l', refusal := some ⟨l.reason⟩ }
  else { state := { l' with history := l.history.commit r }, log := l.history.commitLog r }

/-- Reads the usage. -/
def usage (l : Ledger) (count : Nat) : Ledger × Usage :=
  match l.readings with
  | none => (l, l.history.usage count)
  | some [] => (l, ⟨0, 0⟩)
  | some [r] => (l, r)
  | some (r :: rest) => ({ l with readings := some rest }, r)

/-- A ledger as an archive. -/
def archive : Archive Ledger where
  commit := commit
  size l := l.history.size
  usage := usage

end Ledger

/-! ## The agenda -/

/-- Something that will happen. -/
inductive Happening
  /-- An item is sent into a pipe, by someone who then leaves. -/
  | send (pipe : Nat) (item : Item)
  /-- The token of a session is cancelled. -/
  | cancel (session : Nat)

/-- Something that will happen at a certain millisecond. -/
structure Appointment where
  due : Nat
  happening : Happening

/-- Puts an appointment after those that are due no later. -/
def schedule (a : Appointment) : List Appointment → List Appointment
  | [] => [a]
  | b :: rest => if b.due ≤ a.due then b :: schedule a rest else a :: b :: rest

/-! ## Simulations -/

/-- A controller in its world. -/
structure Simulation where
  controller : Controller Ledger
  transport : Scripted := {}
  /-- The milliseconds since the beginning. -/
  clock : Nat := 0
  /-- What will happen, in order. -/
  agenda : List Appointment := []
  /-- The reads, by pipe and number, during which the token is cancelled. -/
  interruptions : List (Nat × Nat) := []
  /-- The milliseconds that pass before each of the next steps of a drive; before any further step
  no time passes. -/
  pace : List Nat := []

/-- How far a step came. -/
inductive Attempt
  /-- No session is streaming. -/
  | idle
  | did (outcome : StepResult)
  /-- The step waits for the answer to its request. -/
  | opening
  /-- The step waits for a tick, if there is one, or an item. -/
  | reading (tick : Option Tick)

namespace Simulation

/-- The stream that the current session reads. -/
def stream? (s : Simulation) : Option Nat := s.controller.session.bind Session.stream?

/-- Replaces the controller. A stream that it no longer reads loses its reader. -/
def put (s : Simulation) (c : Controller Ledger) : Simulation :=
  let kept := c.session.bind Session.stream?
  let transport := match s.stream? with
    | some n => if kept = some n then s.transport else s.transport.onPipe n Pipe.dropReader
    | none => s.transport
  { s with controller := c, transport }

/-- Moves the clock. -/
def setClock (s : Simulation) (ms : Nat) : Simulation :=
  { s with clock := ms, controller := { s.controller with now := ms * nanosPerMilli } }

/-- Lets something happen. -/
def happen (s : Simulation) : Happening → Simulation
  | .send pipe item =>
    { s with transport := (s.transport.send pipe item).1.onPipe pipe Pipe.dropWriter }
  | .cancel session => { s with controller := s.controller.cancelToken session }

/-- Lets so many milliseconds pass, and everything happen that is due, without the controller. -/
def advance (s : Simulation) (ms : Nat) : Simulation :=
  let target := s.clock + ms
  let due := s.agenda.takeWhile (·.due ≤ target)
  let s := due.foldl (fun s a ↦ (s.setClock (max s.clock a.due)).happen a.happening)
    { s with agenda := s.agenda.drop due.length }
  s.setClock target

/-- Puts something on the agenda, so many milliseconds from now. What is due now happens now. -/
def later (s : Simulation) (ms : Nat) (h : Happening) : Simulation :=
  { s with agenda := schedule { due := s.clock + ms, happening := h } s.agenda }.advance 0

/-- Puts the sending of an item into a feed on the agenda. The feed stays open until then. -/
def sendLater (s : Simulation) (name : String) (ms : Nat) (i : Item) : Simulation :=
  match s.transport.feed? name with
  | some n =>
    { s with transport := s.transport.onPipe n fun p ↦ { p with writers := p.writers + 1 } }.later
      ms (.send n i)
  | none => s

/-- Cancels the token of the current session from outside. -/
def interrupt (s : Simulation) : Simulation :=
  match s.controller.session with
  | some session => { s with controller := s.controller.cancelToken session.id }
  | none => s

/-- Ends a step with what the controller made of it. -/
def conclude (s : Simulation) (r : Controller Ledger × StepResult) : Simulation × Attempt :=
  (s.put r.1, .did r.2)

/-- Gives the controller a stream. Should it not take it, the stream loses its reader. -/
def giveStream (s : Simulation) (n : Nat) : Simulation × Attempt :=
  let (s, a) := s.conclude (s.controller.onAnswer (.ok n))
  if s.stream? = some n then (s, a)
  else ({ s with transport := s.transport.onPipe n Pipe.dropReader }, a)

/-- Hands a request to the transport. -/
def ask (s : Simulation) (r : Request) : Simulation × Attempt :=
  let (transport, answer) := s.transport.ask r
  let s := { s with transport }
  match answer with
  | .stream n => s.giveStream n
  | .rejection e => s.conclude (s.controller.onAnswer (.error e))
  | .silence => (s, .opening)
  | .interrupted n none => s.interrupt.giveStream n
  | .interrupted n (some k) =>
    { s with interruptions := (n, k) :: s.interruptions }.giveStream n

/-- Whether a tick is due. -/
def isDue (s : Simulation) (t : Tick) : Bool := t.deadline ≤ s.clock * nanosPerMilli

/-- Reads from a stream. -/
def readStream (s : Simulation) (n : Nat) (tick : Option Tick) : Simulation × Attempt :=
  let number := ((s.transport.pipes[n]?).map Pipe.reads).getD 0
  let (transport, found) := s.transport.read n
  let s := { s with transport }
  let interrupted := if s.interruptions.contains (n, number) then s.interrupt else s
  match found with
  | .item i => interrupted.conclude (interrupted.controller.onItem (some i))
  | .ended => interrupted.conclude (interrupted.controller.onItem none)
  | .waiting => (s, .reading tick)

/-- Takes one step, as far as it goes without waiting. -/
def attempt (s : Simulation) : Simulation × Attempt :=
  match s.controller.turn with
  | .idle => (s, .idle)
  | .over c o => s.conclude (c, o)
  | .opening c r => { s with controller := c }.ask r
  | .reading n tick =>
    match tick with
    | some t => if s.isDue t then s.conclude (s.controller.onTick t.id) else s.readStream n tick
    | none => s.readStream n tick

/-- Begins a session and takes its first step. Tells its number, and whether the step is over. -/
def start (s : Simulation) (p : Prompt) : Except BeginError (Simulation × Nat × Bool) :=
  match s.controller.begin p with
  | .error e => .error e
  | .ok (c, id) =>
    let (s, a) := (s.put c).attempt
    .ok (s, id, match a with
      | .opening => false
      | _ => true)

/-- Lets the time pass that comes before the next step. -/
def elapse (s : Simulation) : Simulation :=
  match s.pace with
  | [] => s
  | ms :: rest => { s with pace := rest }.advance ms

/-- The millisecond at which a tick is due. -/
def dueMilli (t : Tick) : Nat := (t.deadline + nanosPerMilli - 1) / nanosPerMilli

/-- What a drive comes to. -/
inductive Drive
  | reached (state : SessionState)
  /-- It was given up at its time limit. -/
  | givenUp

/-- Waits for the first appointment, or for the time limit if that comes no later. Tells whether
the limit was not reached. -/
def awaitAgenda (s : Simulation) (limit : Nat) : Simulation × Bool :=
  match s.agenda.head? with
  | none => (s.advance (limit - s.clock), false)
  | some a => (s.advance (min a.due limit - s.clock), a.due < limit)

/-- Waits for what comes first: the tick, the first appointment, or the time limit. Tells whether
the limit was not reached. At one millisecond a tick comes first, then the limit, and then all that
is on the agenda, before any further step. -/
def await (s : Simulation) (tick : Option Tick) (limit : Nat) : Simulation × Bool :=
  match tick.map dueMilli with
  | none => s.awaitAgenda limit
  | some t =>
    if t ≤ limit && s.agenda.head?.all fun a ↦ t ≤ max s.clock a.due then
      (s.setClock (max s.clock t), true)
    else s.awaitAgenda limit

/-- Takes steps until the session ends or the limit is reached. `opening` says that a step is
waiting for the answer to its request. -/
def driveWith (limit : Nat) : (fuel : Nat) → (opening : Bool) → Simulation → Simulation × Drive
  | 0, _, s => (s, .givenUp)
  | fuel + 1, true, s =>
    if s.controller.tokenCancelled then
      let (s, _) := s.conclude s.controller.cancelledOpening
      (s, .reached s.controller.state)
    else
      match s.await none limit with
      | (s, true) => driveWith limit fuel true s
      | (s, false) => (s, .givenUp)
  | fuel + 1, false, s =>
    match s.elapse.attempt with
    | (s, .idle) => (s, .reached s.controller.state)
    | (s, .did (.finished state)) => (s, .reached state)
    | (s, .did _) => driveWith limit fuel false s
    | (s, .opening) => driveWith limit fuel true s
    | (s, .reading tick) =>
      match s.await tick limit with
      | (s, true) => driveWith limit fuel false s
      | (s, false) => (s, .givenUp)

/-- Everything sent and not read. -/
def backlog (s : Simulation) : Nat := (s.transport.pipes.map (·.queue.length)).foldl Nat.add 0

/-- How long a drive may take, in milliseconds. -/
def driveLimit : Nat := 60000

/-- Takes steps until the session ends, or for a minute. Between two items there is at most one
tick, and every wait ends with a tick, an appointment or the limit. -/
def drive (s : Simulation) : Simulation × Drive :=
  s.driveWith (s.clock + driveLimit) (8 * (s.backlog + s.agenda.length + 2)) false

end Simulation

end ChatStream
