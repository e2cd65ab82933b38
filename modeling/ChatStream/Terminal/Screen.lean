import ChatStream.Session.View

/-!
# Painting on a terminal

The answer goes to standard output as it comes; everything else that the user should know is a
line on standard error. The two meet on one screen, so the answer's line is ended before a status
line is written, and after the answer: one newline, and only where the line is not at its start.
-/

namespace ChatStream

open Decimal

/-- The tag of a notice. -/
def NoticeLevel.tag : NoticeLevel → String
  | .info => "info"
  | .warning => "warning"
  | .error => "error"

/-- The status line for an event, if it needs one. -/
def statusText? : ViewEvent → Option String
  | .notice level message => some ("[" ++ level.tag ++ "] " ++ message)
  | .budgetNearLimit tokens limit =>
    some ("[context] ~" ++ natText tokens ++ " of " ++ natText limit ++ " tokens used. " ++
      "Type /summarize to condense the conversation with the next message.")
  | .stateChanged _ .cancelled => some "[stopped]"
  | _ => none

/-- What has been written to a terminal. -/
structure Screen where
  /-- Standard output. -/
  out : String := ""
  /-- Standard error. -/
  err : String := ""
  /-- Whether the answer is at the start of a line. -/
  atLineStart : Bool := true
  deriving DecidableEq, Repr

namespace Screen

/-- Writes a part of the answer. -/
def write (s : Screen) (text : String) : Screen :=
  if text.isEmpty then s
  else { s with out := s.out ++ text, atLineStart := text.toList.getLast? = some '\n' }

/-- Ends the line of the answer, unless it is at its start. -/
def endLine (s : Screen) : Screen :=
  if s.atLineStart then s else { s with out := s.out ++ "\n", atLineStart := true }

/-- Writes a status line. -/
def status (s : Screen) (line : String) : Screen :=
  let s := s.endLine
  { s with err := s.err ++ line ++ "\n" }

/-- Paints an event. -/
def paint (s : Screen) (e : ViewEvent) : Screen :=
  match e with
  | .render _ (.frame delta) => s.write delta
  | .render _ (.final delta committed _) =>
    let s := s.write delta
    if committed.isEmpty then s else s.endLine
  | e =>
    match statusText? e with
    | some line => s.status line
    | none => s

/-- Paints events one after another. -/
def paintAll (s : Screen) (es : List ViewEvent) : Screen := es.foldl paint s

end Screen

end ChatStream
