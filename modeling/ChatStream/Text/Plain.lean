/-!
# Plain text

A text that is not written for a terminal has no use for control sequences. Those begin with an
escape; `Place` says how far into one a reader is, and all of it is dropped, as are lone controls.

Blanks of layout (tab, line feed, form feed, carriage return) are kept, and in the sequences that
allow for them they make a break: what follows is text again, up to the next control, and with that
control the reader is back where the sequence was broken off. A character beyond ASCII in the break
ends the sequence for good.
-/

namespace ChatStream.Text.Plain

/-- How far into a sequence a reader is. -/
inductive Place
  /-- In none. -/
  | ground
  /-- After an escape. -/
  | escape
  /-- After an escape and what qualifies it. -/
  | qualified
  /-- In a sequence of parameters. -/
  | parameters
  /-- At the beginning of a request to a device. -/
  | request
  /-- In the parameters of such a request. -/
  | requestParameters
  /-- After what qualifies such a request. -/
  | requestQualified
  /-- In a string for a device. -/
  | device
  /-- In a command to the terminal's system. -/
  | command
  deriving DecidableEq, Repr

/-- Where a reader is. -/
structure Reader where
  place : Place := .ground
  /-- Whether a blank has made a break. -/
  inBreak : Bool := false
  deriving DecidableEq, Repr

/-- Whether a character is a blank of layout. -/
def isLayout (c : Char) : Bool := c = '\t' || c = '\n' || c = '\x0c' || c = '\r'

/-- Whether a character is a control of ASCII. -/
def isControl (c : Char) : Bool := c.toNat < 0x20 || c = '\x7f'

/-- Whether a character is beyond ASCII. -/
def isBeyondAscii (c : Char) : Bool := 0x7f < c.toNat

/-- Whether a character ends a string for a device. The terminator is a single byte, `9C`, which
also counts where it is part of a character. -/
def isTerminator (c : Char) : Bool := (String.utf8EncodeChar c).contains 0x9c

/-- Whether a character is between two others of ASCII, both included. -/
def within (lo hi c : Char) : Bool := lo.toNat ≤ c.toNat && c.toNat ≤ hi.toNat

namespace Place

/-- Whether a blank makes a break in the sequence. -/
def allowsBreak : Place → Bool
  | escape => true
  | qualified => true
  | parameters => true
  | _ => false

/-- Where the character `c` of a sequence leads. What has no meaning in a sequence leads nowhere. -/
def next (p : Place) (c : Char) : Place :=
  let qualifies := within ' ' '/' c
  match p with
  | ground => ground
  | escape =>
    if qualifies then qualified
    else if c = '[' then parameters
    else if c = ']' then command
    else if c = 'P' then request
    else if c = 'X' || c = '^' || c = '_' then device
    else if within '0' '~' c then ground
    else escape
  | qualified => if within '0' '~' c then ground else qualified
  | parameters => if within '@' '~' c then ground else parameters
  | request =>
    if qualifies then requestQualified
    else if within '0' '?' c then requestParameters
    else if within '@' '~' c then device
    else request
  | requestParameters =>
    if qualifies then requestQualified
    else if within '<' '~' c then device
    else requestParameters
  | requestQualified => if within '0' '~' c then device else requestQualified
  | device => if isTerminator c then ground else device
  | command => if c = '\x07' then ground else command

end Place

namespace Reader

/-- Reads one character: where the reader is then, and whether the character is kept. -/
def step (r : Reader) (c : Char) : Reader × Bool :=
  if c = '\x1b' then ({ place := .escape }, false)
  else if c = '\x18' || c = '\x1a' then ({}, false)
  else if r.place = .ground || r.inBreak then
    if isControl c && !isLayout c then ({ r with inBreak := false }, false)
    else (if isBeyondAscii c then {} else r, true)
  else if r.place.allowsBreak && isLayout c then ({ r with inBreak := true }, true)
  else ({ r with place := r.place.next c }, false)

/-- What a reader leaves of `cs`. -/
def strip (r : Reader) : List Char → List Char
  | [] => []
  | c :: rest =>
    let (r', kept) := r.step c
    if kept then c :: strip r' rest else strip r' rest

end Reader

end ChatStream.Text.Plain

namespace ChatStream.Text

/-- A text without control sequences and controls. -/
def plain (s : String) : String := String.ofList (({} : Plain.Reader).strip s.toList)

end ChatStream.Text
