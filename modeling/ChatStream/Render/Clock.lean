/-!
# Paint boundaries

A view paints at fixed intervals from an origin. Instants are nanoseconds from one common zero.
-/

namespace ChatStream

/-- An instant, in nanoseconds. -/
abbrev Instant := Nat

/-- Nanoseconds in a millisecond. -/
def nanosPerMilli : Nat := 1000000

/-- Nanoseconds in a second. -/
def nanosPerSecond : Nat := 1000000000

/-- The longest stretch from its origin that a clock can name. -/
def longestStretch : Nat := 0xFFFFFFFFFFFFFFFF

/-- Paint boundaries at a fixed interval from an origin. -/
structure PaintClock where
  /-- The first boundary. -/
  origin : Instant
  /-- The distance of two boundaries, at least a millisecond. -/
  interval : Nat
  le_interval : nanosPerMilli ≤ interval := by omega
  deriving DecidableEq, Repr

namespace PaintClock

/-- A clock from `origin`; an interval below a millisecond becomes one. -/
def new (origin : Instant) (interval : Nat) : PaintClock where
  origin := origin
  interval := max interval nanosPerMilli
  le_interval := Nat.le_max_right _ _

/-- The first boundary strictly after an instant, as long as the clock can name it. -/
def boundaryAfter (c : PaintClock) (after : Instant) : Instant :=
  if after < c.origin then c.origin
  else c.origin + min longestStretch (((after - c.origin) / c.interval + 1) * c.interval)

end PaintClock

end ChatStream
