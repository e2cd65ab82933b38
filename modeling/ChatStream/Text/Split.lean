/-!
# Cutting text

A text cut at every occurrence of one character has one part more than there are occurrences; parts
may be empty.
-/

namespace ChatStream.Text

/-- Cuts a text at every `sep`. -/
def splitAt (sep : Char) (cs : List Char) : List (List Char) :=
  let (parts, part) := cs.foldl (fun (parts, part) c ↦
    if c = sep then (part.reverse :: parts, []) else (parts, c :: part)) ([], [])
  (part.reverse :: parts).reverse

end ChatStream.Text
