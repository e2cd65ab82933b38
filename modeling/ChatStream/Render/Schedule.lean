import ChatStream.Decimal.Numeral
import ChatStream.Log
import ChatStream.Render.Text
import ChatStream.Render.Clock
import ChatStream.Render.State

/-!
# At most one update for each frame

The first fragment after a paint schedules one tick, at the next paint boundary; fragments that
come before it fires only grow the pending text. However fast the server is, the view gets one
frame for each paint.

When the session ends, everything pending goes into one final update, and the tick is forgotten:
nothing is painted after the end.
-/

namespace ChatStream

/-- A paint that is due. -/
structure Tick where
  /-- Tells the ticks of one session apart. -/
  id : Nat
  /-- The paint boundary at which it fires. -/
  deadline : Instant
  deriving DecidableEq, Repr

/-- What the view is given to paint. -/
inductive Update
  /-- The text since the last frame. -/
  | frame (delta : String)
  /-- The rest of the text, all of the text, and how the session ended. -/
  | final (delta committed : String) (state : SessionState)
  deriving DecidableEq, Repr

namespace Update

/-- The text to add to what is already painted. -/
def delta : Update → String
  | .frame d => d
  | .final d _ _ => d

/-- Whether this is the last update of its session. -/
def isFinal : Update → Bool
  | .frame _ => false
  | .final .. => true

end Update

/-- How well fragments were gathered. -/
structure PaintCounts where
  ticks : Nat := 0
  frames : Nat := 0
  /-- Fragments that found a tick already waiting. -/
  coalesced : Nat := 0
  deriving DecidableEq, Repr

/-- Decides when a session is painted. -/
structure PaintSchedule where
  clock : PaintClock
  /-- The tick that waits to fire. -/
  waiting : Option Tick := none
  /-- The id of the last tick. -/
  lastId : Nat := 0
  /-- Whether the final update has been given out. -/
  closed : Bool := false
  stats : PaintCounts := {}
  deriving DecidableEq, Repr

namespace PaintSchedule

/-- A schedule that has seen nothing. -/
def new (clock : PaintClock) : PaintSchedule := { clock }

/-- Notes that a fragment was applied, and returns the tick that this schedules, if any. -/
def noteFragment (s : PaintSchedule) (now : Instant) : PaintSchedule × Option Tick :=
  if s.closed then (s, none)
  else if s.waiting.isSome then
    ({ s with stats.coalesced := s.stats.coalesced + 1 }, none)
  else
    let tick : Tick := { id := s.lastId + 1, deadline := s.clock.boundaryAfter now }
    ({ s with
        waiting := some tick
        lastId := tick.id
        stats.ticks := s.stats.ticks + 1 }, some tick)

/-- Fires a tick: the pending text becomes a frame, if there is any. An id that is not the one
waiting does nothing. -/
def fire (s : PaintSchedule) (id : Nat) (a : RunningText) :
    PaintSchedule × RunningText × Option Update :=
  if s.waiting.any (·.id = id) then
    let (a, delta) := a.drain
    let s := { s with waiting := none }
    if delta.isEmpty then (s, a, none)
    else
      ({ s with stats.frames := s.stats.frames + 1 }, a, some (.frame delta))
  else (s, a, none)

/-- Gives out the final update, the first time. -/
def finish (s : PaintSchedule) (a : RunningText) (state : SessionState) :
    PaintSchedule × RunningText × Option Update :=
  if s.closed then (s, a, none)
  else
    let (a, delta) := a.drain
    ({ s with closed := true, waiting := none }, a, some (.final delta a.committed state))

/-- What is logged when the final update is asked for. -/
def finishLog (s : PaintSchedule) (state : SessionState) : List LogLine :=
  if s.closed then
    [{ level := .warn, message := "Final flush requested twice, ignoring",
       fields := [("state", state.name)] }]
  else []

/-- What a schedule with no tick waiting shows of itself. -/
def describe (s : PaintSchedule) : String :=
  "RenderScheduler \x7b outstanding: None, finalized: " ++ boolField s.closed ++
    ", stats: ScheduleStats \x7b ticks_scheduled: " ++ Decimal.natText s.stats.ticks ++
    ", frames_emitted: " ++ Decimal.natText s.stats.frames ++
    ", deltas_coalesced: " ++ Decimal.natText s.stats.coalesced ++ " \x7d, .. \x7d"

end PaintSchedule

end ChatStream
