import ChatStream.Render.Schedule

/-!
# What a view is told

Views only draw. They learn of sessions, text to paint, changes of state and notices as a sequence
of events, and never look into a session. Sessions are numbered in the order in which they begin.
-/

namespace ChatStream

/-- How serious a notice is. -/
inductive NoticeLevel
  | info
  | warning
  | error
  deriving DecidableEq, Repr

/-- One thing that a view is told. -/
inductive ViewEvent
  | sessionStarted (session : Nat) (model : String)
  | render (session : Nat) (update : Update)
  | stateChanged (session : Nat) (state : SessionState)
  | notice (level : NoticeLevel) (message : String)
  /-- The conversation is near its limit, and a summary should be offered. -/
  | budgetNearLimit (tokens limit : Nat)
  deriving DecidableEq, Repr

end ChatStream
