/-!
# The life of a session

A session is streaming until it is completed, errored or cancelled, and stays that. Idle is what a
controller reports before its first session.
-/

namespace ChatStream

/-- Where a session stands. -/
inductive SessionState
  | idle
  | streaming
  | completed
  | errored
  | cancelled
  deriving DecidableEq, Repr, Inhabited

namespace SessionState

/-- Whether nothing can follow. -/
def isTerminal : SessionState → Bool
  | .completed => true
  | .errored => true
  | .cancelled => true
  | _ => false

/-- The name of a state. -/
def name : SessionState → String
  | .idle => "Idle"
  | .streaming => "Streaming"
  | .completed => "Completed"
  | .errored => "Errored"
  | .cancelled => "Cancelled"

end SessionState

end ChatStream
