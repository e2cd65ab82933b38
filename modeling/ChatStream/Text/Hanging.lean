/-!
# Hanging indents

A text that stands to the right of something on its first line keeps that column on its further
lines.
-/

namespace ChatStream.Text

/-- Indents all lines but the first by `width` spaces, empty ones too. -/
def hang (width : Nat) (s : String) : String :=
  String.ofList (s.toList.flatMap fun c ↦
    if c = '\n' then '\n' :: List.replicate width ' ' else [c])

end ChatStream.Text
