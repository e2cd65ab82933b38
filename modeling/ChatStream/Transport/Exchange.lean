import ChatStream.Transport.Scripted

/-!
# Streams handed out

An exchange is a scripted transport together with the streams it has handed out, each with its own
token. Streams are numbered in the order in which they were opened; one that was dropped leaves its
number behind.
-/

namespace ChatStream

/-- A stream that was handed out, and the pipe it reads. -/
structure Opened where
  pipe : Nat
  stream : StreamReader := {}
  deriving DecidableEq, Repr

/-- A scripted transport and its streams. -/
structure Exchange where
  transport : Scripted := {}
  /-- The streams by number, `none` for those that were dropped. -/
  streams : List (Option Opened) := []

namespace Exchange

/-- Hands out the stream of a pipe. -/
def handOut (x : Exchange) (pipe : Nat) : Exchange × Nat :=
  ({ x with streams := x.streams ++ [some { pipe }] }, x.streams.length)

/-- Takes a request: the number of the stream that answers it, a rejection, or for `none` no answer
yet. -/
def request (x : Exchange) (r : Request) : Exchange × Option (Except TransportError Nat) :=
  let (transport, answer) := x.transport.ask r
  let x := { x with transport }
  match answer with
  | .stream pipe => let (x, n) := x.handOut pipe; (x, some (.ok n))
  | .interrupted pipe _ => let (x, n) := x.handOut pipe; (x, some (.ok n))
  | .rejection e => (x, some (.error e))
  | .silence => (x, none)

/-- The stream with a number, unless it was dropped. -/
def stream? (x : Exchange) (n : Nat) : Option Opened := (x.streams[n]?).join

/-- Reads from a stream. -/
def next (x : Exchange) (n : Nat) : Exchange × Poll :=
  match x.stream? n with
  | some o =>
    let (transport, stream, found) := x.transport.next o.pipe o.stream
    ({ transport, streams := x.streams.set n (some { o with stream }) }, found)
  | none => (x, .ended)

/-- Cancels a stream. -/
def cancel (x : Exchange) (n : Nat) : Exchange :=
  match x.stream? n with
  | some o => { x with streams := x.streams.set n (some { o with stream := o.stream.cancel }) }
  | none => x

/-- Drops a stream, and with it the reading end of its pipe. -/
def drop (x : Exchange) (n : Nat) : Exchange :=
  match x.stream? n with
  | some o =>
    { transport := x.transport.onPipe o.pipe Pipe.dropReader, streams := x.streams.set n none }
  | none => x

end Exchange

end ChatStream
