import ChatStream.Text.Utf8

/-!
# Lines from a byte stream

A response arrives as chunks cut anywhere: inside a character, inside a line, between a carriage
return and its line feed. All that one chunk leaves for the next is a `Carry`: the bytes of a
character that has only begun, and the text since the last line feed.

A chunk is taken byte by byte, so a chunk boundary is nothing but a place between two bytes:
reading `a ++ b` is reading `a` and then `b`.
-/

namespace ChatStream

/-- What is carried over between two chunks. -/
structure Carry where
  /-- The bytes of a character whose remainder has not arrived. -/
  held : Bytes := []
  /-- The text after the last line feed. -/
  openLine : String := ""
  deriving DecidableEq, Repr

namespace Carry

/-- Nothing is carried over. -/
def empty : Carry := {}

instance : Inhabited Carry := ⟨empty⟩

/-- Whether nothing is carried over. -/
def isEmpty (c : Carry) : Bool := c.held.isEmpty && c.openLine.isEmpty

/-- The bytes carried over, held and decoded together. -/
def size (c : Carry) : Nat := c.held.length + c.openLine.utf8ByteSize

/-- A line without the one carriage return that may end it. -/
def dropReturn (line : String) : String :=
  match line.toList.getLast? with
  | some '\r' => String.ofList line.toList.dropLast
  | _ => line

/-- A reader at work: what is carried over, and the lines completed so far. -/
abbrev Progress := Carry × Array String

/-- Takes one character: a line feed completes the line, any other character extends it. -/
def takeChar (p : Progress) (c : Char) : Progress :=
  let (carry, lines) := p
  if c = '\n' then ({ carry with openLine := "" }, lines.push (dropReturn carry.openLine))
  else ({ carry with openLine := carry.openLine.push c }, lines)

/-- Takes one byte. -/
def takeByte (p : Progress) (byte : UInt8) : Progress :=
  let (carry, lines) := p
  let (chars, held) := Utf8.step carry.held byte
  chars.foldl takeChar ({ carry with held }, lines)

/-- Reads one chunk: what is carried over after it, and the lines it completed. Lines come without
their line feed and without one carriage return before it. -/
def read (c : Carry) (chunk : Bytes) : Carry × List String :=
  let (c', lines) := chunk.foldl takeByte (c, #[])
  (c', lines.toList)

/-- The last line, when the stream ends without a line feed. A character that was never finished
becomes one replacement; a line with nothing in it is no line. -/
def finish (c : Carry) : Option String :=
  let text := if c.held.isEmpty then c.openLine else c.openLine.push Utf8.replacement
  let line := dropReturn text
  if line.isEmpty then none else some line

end Carry

/-- A reader of lines, which also counts those that it has given out. -/
structure LineReader where
  /-- What is carried over to the next chunk. -/
  carry : Carry := {}
  /-- Lines given out so far. -/
  lineCount : Nat := 0
  deriving DecidableEq, Repr

namespace LineReader

/-- A reader at the start of a stream. -/
def new : LineReader := {}

/-- Reads one chunk and gives out the lines it completed. -/
def push (r : LineReader) (chunk : Bytes) : LineReader × List String :=
  let (carry, lines) := r.carry.read chunk
  ({ carry, lineCount := r.lineCount + lines.length }, lines)

/-- Ends the stream and gives out its last line. The reader is then as good as new, but for its
count. -/
def finish (r : LineReader) : LineReader × Option String :=
  match r.carry.finish with
  | some line => ({ carry := .empty, lineCount := r.lineCount + 1 }, some line)
  | none => ({ r with carry := .empty }, none)

/-- Forgets what is carried over. -/
def clear (r : LineReader) : LineReader := { r with carry := .empty }

end LineReader

end ChatStream
