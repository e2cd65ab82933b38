import ChatStream.Decimal.Numeral
import ChatStream.Log
import ChatStream.Text.Utf8
import ChatStream.Transport.Error

/-!
# Byte streams that can be cut off

A pipe carries chunks and read errors from whoever feeds it to one reader. It ends when everything
sent has been read and nobody can send any more. It is read through a `StreamReader`, which also
ends as soon as its token is cancelled, whatever is still in the pipe; once ended, it stays so.
-/

namespace ChatStream

/-- What a pipe carries: a chunk or a read error. -/
abbrev Item := Except TransportError Bytes

/-- What a read finds. -/
inductive Poll
  | item (i : Item)
  /-- Nothing more will come. -/
  | ended
  /-- Nothing is there yet. -/
  | waiting

/-- A pipe from its feeders to its reader. -/
structure Pipe where
  /-- What was sent and not yet read, oldest first. -/
  queue : List Item := []
  /-- The number of those who can still send. -/
  writers : Nat := 0
  /-- Whether there is still a reader. -/
  hasReader : Bool := true
  /-- How many reads found something, the end included. -/
  reads : Nat := 0

namespace Pipe

/-- A pipe that holds the given chunks and then ends. -/
def ofChunks (chunks : List Bytes) : Pipe := { queue := chunks.map .ok }

/-- Sends an item. Tells whether there is anyone to read it. -/
def send (p : Pipe) (i : Item) : Pipe × Bool :=
  if p.hasReader then ({ p with queue := p.queue ++ [i] }, true) else (p, false)

/-- Reads an item. -/
def read (p : Pipe) : Pipe × Poll :=
  match p.queue with
  | i :: rest => ({ p with queue := rest, reads := p.reads + 1 }, .item i)
  | [] => if p.writers = 0 then ({ p with reads := p.reads + 1 }, .ended) else (p, .waiting)

/-- One more can send. -/
def addWriter (p : Pipe) : Pipe := { p with writers := p.writers + 1 }

/-- One who could send no longer can. -/
def dropWriter (p : Pipe) : Pipe := { p with writers := p.writers - 1 }

/-- The reader is gone. -/
def dropReader (p : Pipe) : Pipe := { p with hasReader := false, queue := [] }

end Pipe

/-- A reader's view of a pipe. -/
structure StreamReader where
  /-- Whether its token is cancelled. -/
  cancelled : Bool := false
  /-- Whether a read has found the end. -/
  ended : Bool := false
  deriving DecidableEq, Repr

namespace StreamReader

/-- Reads the next item. A cancelled token is the end, whatever the pipe holds. -/
def next (s : StreamReader) (p : Pipe) : StreamReader × Pipe × Poll :=
  if s.ended then (s, p, .ended)
  else if s.cancelled then ({ s with ended := true }, p, .ended)
  else
    match p.read with
    | (p, .ended) => ({ s with ended := true }, p, .ended)
    | (p, found) => (s, p, found)

/-- Cancels the token of a stream that has not ended. -/
def cancel (s : StreamReader) : StreamReader :=
  if s.ended then s else { s with cancelled := true }

/-- Cancels the token itself. -/
def cancelToken (s : StreamReader) : StreamReader := { s with cancelled := true }

/-- What a stream shows of itself. -/
def describe (s : StreamReader) : String :=
  "OpenStream \x7b cancelled: " ++ boolField s.cancelled ++ ", ended: " ++ boolField s.ended ++
    ", .. \x7d"

end StreamReader

end ChatStream
