import ChatStream.Json.Value
import ChatStream.Log
import ChatStream.Text.Blank

/-!
# Events on the wire

An event is one line: a marker, then a JSON payload with up to three fields. `content` is a
fragment of the answer, `done` ends it, and `error` ends it badly. Fields may come together, so a
final fragment may travel with the end.

Lines that are no event (comments, blank lines, the start announcement, payloads of any other
form) say nothing and never stop the stream. Reading a line therefore always succeeds; `Reading`
only remembers whether a payload was thrown away, which is worth a log line.
-/

namespace ChatStream

open Json Text

/-- The conventions of the server's event lines. -/
structure LineFormat where
  /-- What every event line starts with. -/
  marker : String := "data: "
  /-- The payload that announces a stream; it is no event. -/
  announcement : String := "[START]"
  deriving DecidableEq, Repr

/-- What a line contributes to the answer. -/
inductive Event
  /-- A fragment of the answer. -/
  | content (text : String)
  /-- The answer is complete, perhaps with a last fragment. -/
  | done (trailing : Option String)
  /-- The server failed, perhaps with a last fragment. -/
  | error (message : String) (trailing : Option String)
  /-- Nothing. -/
  | unknown
  deriving DecidableEq, Repr

namespace Event

/-- The fragment that an event carries. -/
def text : Event → Option String
  | .content t => some t
  | .done t => t
  | .error _ t => t
  | .unknown => none

/-- Whether the event ends the answer. -/
def isTerminal : Event → Bool
  | .done _ => true
  | .error .. => true
  | _ => false

end Event

/-- What an `error` value reports, if it reports anything. Servers send a string, an object with a
`message`, or a mere flag; null, false, blank strings and empty containers report nothing. An
object whose `message` reports nothing is shown whole. -/
def reported? : Value → Option String
  | .null => none
  | .truth b => if b then some "unspecified error" else none
  | .text s => let s := trim s; if s.isEmpty then none else some s
  | .number n => some n.tree.render
  | .array items => if items.isEmpty then none else some (Value.array items).render
  | .object members =>
    match inMembers members with
    | some message => some message
    | none => if members.isEmpty then none else some (Value.object members).render
where
  /-- What the member called `message` reports. -/
  inMembers : List (String × Value) → Option String
    | [] => none
    | (k, v) :: rest => if k = "message" then reported? v else inMembers rest

/-- The payload of an event. -/
structure Payload where
  content : Option String := none
  done : Option Bool := none
  error : Option Value := none

/-- Reads a payload. The payload itself is the first level of nesting. -/
def Payload.ofTree? (t : Tree) : Option Payload := do
  match ← t.fields? ["content", "done", "error"] with
  | [content, done, error] =>
    return {
      content := ← optional? Tree.string? content
      done := ← optional? Tree.truth? done
      error := ← optional? (Tree.value? (depthLimit - 1)) error }
  | _ => none

/-- What a payload says: an error before the end, the end before a mere fragment. An empty
fragment is none. -/
def Payload.event (p : Payload) : Event :=
  let trailing := p.content.filter (!·.isEmpty)
  match p.error.bind reported? with
  | some message => .error message trailing
  | none =>
    if p.done = some true then .done trailing
    else match trailing with
      | some text => .content text
      | none => .unknown

/-- How a line reads. -/
inductive Reading
  | event (e : Event)
  /-- The line carries a payload of `size` bytes that is no event. -/
  | malformed (size : Nat)
  deriving DecidableEq, Repr

/-- The event of a reading; a payload that is no event says nothing. -/
def Reading.toEvent : Reading → Event
  | .event e => e
  | .malformed _ => .unknown

/-- What is logged about a reading. -/
def Reading.log : Reading → List LogLine
  | .event _ => []
  | .malformed size =>
    [{ level := .debug, message := "Dropping malformed event payload",
       fields := [("len", Decimal.natText size)] }]

namespace LineFormat

/-- Reads one line. -/
def read (w : LineFormat) (line : String) : Reading :=
  match after? w.marker line with
  | none => .event .unknown
  | some rest =>
    let payload := trim rest
    if payload.isEmpty || payload = w.announcement then .event .unknown
    else
      match (Tree.parse? payload).bind Payload.ofTree? with
      | some p => .event p.event
      | none => .malformed payload.utf8ByteSize

/-- The event of one line. -/
def parse (w : LineFormat) (line : String) : Event := (w.read line).toEvent

end LineFormat

end ChatStream
