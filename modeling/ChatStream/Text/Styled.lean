/-!
# Styled text

A text in pieces, some of which a terminal is to show in bold or underlined. Styles are control
sequences around a piece; they take no room.
-/

namespace ChatStream.Text

/-- A piece of text in one style. -/
inductive Span
  | plain (s : String)
  /-- In bold. -/
  | strong (s : String)
  /-- In bold and underlined. -/
  | heading (s : String)
  deriving DecidableEq, Repr

namespace Span

/-- The text of a piece. -/
def text : Span → String
  | plain s => s
  | strong s => s
  | heading s => s

/-- The control sequence that ends all styles. -/
def reset : String := "\x1b[0m"

/-- A piece with its control sequences. -/
def render : Span → String
  | plain s => s
  | strong s => "\x1b[1m" ++ s ++ reset
  | heading s => "\x1b[1m\x1b[4m" ++ s ++ reset

end Span

/-- A text in pieces. -/
abbrev StyledText := List Span

namespace StyledText

/-- The text of all pieces. -/
def text (t : StyledText) : String := String.join (t.map Span.text)

/-- How many characters a styled text takes up. -/
def width (t : StyledText) : Nat := t.text.length

/-- A styled text with its control sequences. -/
def render (t : StyledText) : String := String.join (t.map Span.render)

end StyledText

end ChatStream.Text
