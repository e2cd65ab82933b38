import ChatStream.Session.Run

/-!
# Driving a session to its end

A drive takes one step after another. What the transport gives is laid down beforehand, as a
`Supply`: a rejection, or a stream of chunks and its end. When things happen is laid down as well,
as one `Moment` for each step: how late it is, whose handles are cancelled meanwhile, and whether a
tick that waits is due before the next item is there.
-/

namespace ChatStream

/-- What the transport gives for one request. -/
inductive Supply
  | rejection (e : TransportError)
  /-- A stream with its number and its chunks, which ends with an error or by itself. -/
  | stream (number : Nat) (chunks : List Bytes) (failure : Option TransportError)

namespace Supply

/-- The answer to the request. -/
def answer : Supply → Except TransportError Nat
  | rejection e => .error e
  | stream number _ _ => .ok number

/-- The items of the stream. -/
def items : Supply → List Item
  | rejection _ => []
  | stream _ chunks failure => chunks.map .ok ++ failure.toList.map .error

/-- The chunks of the stream. -/
def chunks : Supply → List Bytes
  | rejection _ => []
  | stream _ chunks _ => chunks

end Supply

/-- What happens during one step of a drive. -/
structure Moment where
  /-- The sessions whose handles are cancelled meanwhile. -/
  cancelled : List Nat := []
  /-- What the clock shows when the step goes on. -/
  now : Instant
  /-- Whether a tick that waits is due before the next item is there. -/
  tickIsDue : Bool

/-- The wait of the step. -/
def Moment.wait (m : Moment) (wake : Wake) : Wait :=
  { cancelled := m.cancelled, now := m.now, wake }

namespace Controller

variable {σ : Type}

/-- What ends the wait of the next step, and the items that are left then. -/
def nextWake (c : Controller σ) (answer : Except TransportError Nat) (items : List Item)
    (tickIsDue : Bool) : Wake × List Item :=
  match c.turn with
  | .opening .. => (.answer answer, items)
  | .reading _ tick =>
    if tick.isSome && tickIsDue then (.tick, items) else (.item items.head?, items.tail)
  | _ => (.nothing, items)

/-- Takes one step for each moment until the session is over, and tells its state then; `none` when
the moments run out before. -/
def drive (c : Controller σ) (answer : Except TransportError Nat) (items : List Item) :
    List Moment → Controller σ × Option SessionState
  | [] => (c, none)
  | m :: moments =>
    let (wake, items) := c.nextWake answer items m.tickIsDue
    match c.step (m.wait wake) with
    | (c, none) => (c, some c.state)
    | (c, some (.finished state)) => (c, some state)
    | (c, some _) => c.drive answer items moments

end Controller

end ChatStream
