import ChatStream.Request
import ChatStream.Transport.Stream

/-!
# A transport that plays a script

The answers of a scripted transport are laid down beforehand: each request takes the next one,
whatever it asks. An answer may be a stream, fed while it is being read, or a rejection; for the
study of interruptions it may also be a silence, or a stream during which someone cancels.

Replaying captured bytes is the simplest script: one stream of equal pieces.
-/

namespace ChatStream

/-- What a request is answered with. -/
inductive Answer
  /-- The stream of the pipe with this number. -/
  | stream (pipe : Nat)
  | rejection (e : TransportError)
  /-- No answer ever comes. -/
  | silence
  /-- A stream whose token is cancelled while read number `during` is made, or, for `none`, while
  the stream is opened. -/
  | interrupted (pipe : Nat) (during : Option Nat)

/-- What a request is told when the script is at its end. -/
def outOfScript : TransportError := .closed "no scripted response queued"

/-- A transport with its script. -/
structure Scripted where
  /-- All pipes, by number. -/
  pipes : List Pipe := []
  /-- The answers to come. -/
  answers : List Answer := []
  /-- The requests received, oldest first. -/
  requests : List Request := []
  /-- The pipes that are still fed by name. -/
  feeds : List (String × Nat) := []
  /-- What requests past the end of the script are told. -/
  afterwards : TransportError := outOfScript

/-- Cuts bytes into pieces of `size`, the last one perhaps shorter. -/
def pieces (size : Nat) (bytes : Bytes) : List Bytes :=
  go bytes.length [] bytes
where
  /-- Cuts off pieces; every piece takes at least one byte. -/
  go : Nat → List Bytes → Bytes → List Bytes
    | _, done, [] => done.reverse
    | 0, done, _ => done.reverse
    | fuel + 1, done, b :: rest =>
      let n := max size 1
      go fuel ((b :: rest).take n :: done) ((b :: rest).drop n)

namespace Scripted

/-- Adds a pipe, and returns its number. -/
def addPipe (t : Scripted) (p : Pipe) : Scripted × Nat :=
  ({ t with pipes := t.pipes ++ [p] }, t.pipes.length)

/-- Adds an answer to the script. -/
def addAnswer (t : Scripted) (a : Answer) : Scripted := { t with answers := t.answers ++ [a] }

/-- Adds a stream that is yet to be fed, and returns the number of its pipe. -/
def addStream (t : Scripted) : Scripted × Nat :=
  let (t, n) := t.addPipe { writers := 1 }
  (t.addAnswer (.stream n), n)

/-- Changes a pipe. -/
def onPipe (t : Scripted) (n : Nat) (change : Pipe → Pipe) : Scripted :=
  { t with pipes := t.pipes.modify n change }

/-- Sends an item into a pipe. Tells whether there is anyone to read it. -/
def send (t : Scripted) (n : Nat) (i : Item) : Scripted × Bool :=
  match t.pipes[n]? with
  | some p => let (p, heard) := p.send i; ({ t with pipes := t.pipes.set n p }, heard)
  | none => (t, false)

/-- The pipe of a feed. -/
def feed? (t : Scripted) (name : String) : Option Nat := (t.feeds.find? (·.1 = name)).map (·.2)

/-- Sends an item into a feed. Tells whether there is anyone to read it. -/
def sendTo (t : Scripted) (name : String) (i : Item) : Scripted × Bool :=
  match t.feed? name with
  | some n => t.send n i
  | none => (t, false)

/-- Closes a feed. Tells whether there was one. -/
def closeFeed (t : Scripted) (name : String) : Scripted × Bool :=
  match t.feed? name with
  | some n =>
    ({ t.onPipe n Pipe.dropWriter with feeds := t.feeds.filter (·.1 ≠ name) }, true)
  | none => (t, false)

/-- Adds a stream that is fed by name. An earlier feed of that name is closed. -/
def addFeed (t : Scripted) (name : String) : Scripted :=
  let t := (t.closeFeed name).1
  let (t, n) := t.addStream
  { t with feeds := (name, n) :: t.feeds }

/-- Adds a stream of chunks that then ends. -/
def addChunks (t : Scripted) (chunks : List Bytes) : Scripted :=
  let (t, n) := t.addPipe (.ofChunks chunks)
  t.addAnswer (.stream n)

/-- Adds a rejection. -/
def addRejection (t : Scripted) (e : TransportError) : Scripted := t.addAnswer (.rejection e)

/-- A transport that replays captured bytes in pieces of `size`. -/
def ofWire (bytes : Bytes) (size : Nat) : Scripted :=
  Scripted.addChunks {} (pieces size bytes)

/-- Takes a request, and returns its answer. -/
def ask (t : Scripted) (r : Request) : Scripted × Answer :=
  let t := { t with requests := t.requests ++ [r] }
  match t.answers with
  | a :: rest => ({ t with answers := rest }, a)
  | [] => (t, .rejection t.afterwards)

/-- Reads from a pipe. -/
def read (t : Scripted) (n : Nat) : Scripted × Poll :=
  match t.pipes[n]? with
  | some p => let (p, found) := p.read; ({ t with pipes := t.pipes.set n p }, found)
  | none => (t, .ended)

/-- Reads from a pipe through an open stream. -/
def next (t : Scripted) (n : Nat) (s : StreamReader) : Scripted × StreamReader × Poll :=
  match t.pipes[n]? with
  | some p => let (s, p, found) := s.next p; ({ t with pipes := t.pipes.set n p }, s, found)
  | none => (t, s, .ended)

end Scripted

end ChatStream
