/-!
# The text of a session

Fragments go to two places: the committed text, which is all of them, and the pending text, which
is what the view has not been given yet. Whoever paints takes the pending text and leaves none.
-/

namespace ChatStream

/-- The running text of a session. -/
structure RunningText where
  /-- All text so far. -/
  committed : String := ""
  /-- The text that has not been painted. -/
  pending : String := ""
  /-- Fragments applied. -/
  fragments : Nat := 0
  deriving DecidableEq, Repr

namespace RunningText

/-- Adds a fragment. An empty one is none. -/
def apply (a : RunningText) (delta : String) : RunningText :=
  if delta.isEmpty then a
  else
    { committed := a.committed ++ delta
      pending := a.pending ++ delta
      fragments := a.fragments + 1 }

/-- Takes the pending text. -/
def drain (a : RunningText) : RunningText × String :=
  ({ a with pending := "" }, a.pending)

/-- Whether there is text to paint. -/
def hasUnpainted (a : RunningText) : Bool := !a.pending.isEmpty

/-- The size of the committed text in bytes. -/
def committedSize (a : RunningText) : Nat := a.committed.utf8ByteSize

end RunningText

end ChatStream
