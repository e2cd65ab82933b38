import ChatStream.Text.Utf8
import ChatStream.Transport.Stream

/-!
# HTTP answers as streams

A request is one POST. An answer with a status of success is a stream of its body as it comes; any
other answer is a rejection, whose body only describes it and is cut to a readable length on whole
characters. Connecting, and sending the bytes, is not done here: a `Reply` is what came back.
-/

namespace ChatStream

/-- What a server answered. -/
structure Reply where
  status : Nat
  /-- The pieces of the body. -/
  pieces : List Bytes
  /-- Whether the connection broke before the end of the body. -/
  cut : Bool := false
  deriving DecidableEq, Repr

/-- The most bytes kept of the description of a rejection. -/
def descriptionLimit : Nat := 512

/-- The longest start of a text of at most `budget` bytes. -/
def takeBytes (budget : Nat) (s : String) : String := go budget "" s.toList
where
  /-- Takes characters as long as the budget allows. -/
  go (budget : Nat) (done : String) : List Char → String
    | [] => done
    | c :: rest => if c.utf8Size ≤ budget then go (budget - c.utf8Size) (done.push c) rest else done

namespace Reply

/-- Whether the status is one of success. -/
def isSuccess (r : Reply) : Bool := 200 ≤ r.status && r.status < 300

/-- The body as the description of a rejection; nothing of a body that could not be read whole. -/
def description (r : Reply) : String :=
  if r.cut then "" else takeBytes descriptionLimit (Utf8.lossy r.pieces.flatten)

/-- The stream of a body, up to where the connection broke. -/
def items (r : Reply) : List Item :=
  r.pieces.map .ok ++ if r.cut then [.error (.read "connection closed")] else []

end Reply

/-- What is the matter when the token was cancelled before the server answered. -/
def cancelledBeforeAnswer : TransportError := .closed "cancelled before the server responded"

/-- What is the matter when a server cannot be reached. -/
def unreachable (endpoint : String) : TransportError :=
  .connect endpoint ("error sending request for url (" ++ endpoint ++ ")")

/-- Opens a stream over HTTP: `reply` is the server's answer, or `none` when it could not be
reached. -/
def openHttp (endpoint : String) (cancelled : Bool) (reply : Option Reply) :
    Except TransportError (List Item) :=
  if cancelled then .error cancelledBeforeAnswer
  else
    match reply with
    | none => .error (unreachable endpoint)
    | some r => if r.isSuccess then .ok r.items else .error (.status r.status r.description)

/-- The target of a request for a path: a fragment is dropped, a space is written out, and no path
is the root. -/
def requestTarget (path : String) : String :=
  let target := (path.toList.takeWhile (· ≠ '#')).flatMap fun c ↦
    if c = ' ' then ['%', '2', '0'] else [c]
  match target with
  | '/' :: _ => String.ofList target
  | _ => String.ofList ('/' :: target)

/-- The first line of the request for an answer. -/
def requestLine (path : String) : String := "POST " ++ requestTarget path ++ " HTTP/1.1"

/-- The first line of the request that asks whether a server is there. -/
def healthLine : String := "GET / HTTP/1.1"

end ChatStream
