import Mathlib.Tactic
import ChatStream.Session.Controller

/-!
# The chronicle of a conversation

What a controller tells its view is one block after another, each about one session. A `Chronicle`
holds those blocks as data, and `Chronicle.events` writes the events out of it; nothing else about
their order has to be said. A block is still open as long as its session is streaming, and its
`closing` says all that is told when the session ends.

## Why more than the events

The events alone do not show where a budget notice belongs, nor which warning belongs to which
record. The chronicle therefore keeps every check of the budget, noticed or not, and every record
handed in, refused or not, and `Chronicle.deeds` writes these out too. Log lines and requests are
left aside.

## Painted text

A frame of nothing cannot be written down, and the whole text in a final update is not a field of
its own: it is what the frames of the block and the last piece amount to. So a controller with a
chronicle has lost, repeated and reordered nothing of what it painted.
-/

namespace ChatStream

/-! ## Checks and records -/

/-- One check of the budget. -/
structure Check where
  /-- The size of the conversation that was measured. -/
  count : Nat
  /-- The notice that was due. -/
  notice : Option NearLimit

namespace Check

def events (k : Check) : List ViewEvent :=
  k.notice.toList.map fun n ↦ .budgetNearLimit n.tokens n.limit

def deeds (k : Check) : List Deed := .measured k.count :: k.events.map .shown

end Check

/-- One record handed in, and what came of it. -/
structure Offer where
  record : Record
  refusal : Option Refusal

namespace Offer

/-- A refusal is a warning, and anything else is silent. -/
def events (o : Offer) : List ViewEvent :=
  o.refusal.toList.map fun e ↦ .notice .warning ("Could not save message: " ++ e.message)

def deeds (o : Offer) : List Deed := .committed o.record o.refusal :: o.events.map .shown

end Offer

/-! ## Blocks -/

/-- One thing told of a session while it is streaming. -/
inductive Passage
  | frame (delta : String) (nonempty : delta ≠ "")
  | check (k : Check)

namespace Passage

def delta : Passage → String
  | .frame d _ => d
  | .check _ => ""

def events (session : Nat) : Passage → List ViewEvent
  | .frame d _ => [.render session (.frame d)]
  | .check k => k.events

def deeds (session : Nat) : Passage → List Deed
  | .frame d _ => [.shown (.render session (.frame d))]
  | .check k => k.deeds

end Passage

/-- The error notice of an ending. -/
def Ending.events : Ending → List ViewEvent
  | .errored f => [.notice .error f.message]
  | _ => []

/-- What is told of a session from its end on. -/
structure Closing where
  ending : Ending
  /-- The piece of text in the final update. -/
  delta : String
  /-- The record of the message. -/
  question : Offer
  /-- The record of the answer, if it is kept. -/
  answer : Option Offer
  /-- The check of the budget at the end. -/
  check : Check
  /-- The checks after the end, before any further session. -/
  later : List Check := []

namespace Closing

/-- The records handed in. -/
def offers (k : Closing) : List Offer := k.question :: k.answer.toList

def events (session : Nat) (committed : String) (k : Closing) : List ViewEvent :=
  .render session (.final k.delta committed k.ending.state) ::
    k.offers.flatMap Offer.events ++
    .stateChanged session k.ending.state :: k.ending.events ++
    k.check.events ++ k.later.flatMap Check.events

def deeds (session : Nat) (committed : String) (k : Closing) : List Deed :=
  .shown (.render session (.final k.delta committed k.ending.state)) ::
    k.offers.flatMap Offer.deeds ++
    .shown (.stateChanged session k.ending.state) :: k.ending.events.map .shown ++
    k.check.deeds ++ k.later.flatMap Check.deeds

end Closing

/-- What is told of one session. -/
structure Block where
  session : Nat
  model : String
  passages : List Passage := []
  closing : Option Closing := none

namespace Block

/-- How the session ended. -/
def ending? (b : Block) : Option Ending := b.closing.map Closing.ending

/-- The text of the frames. -/
def framed (b : Block) : String := .join (b.passages.map Passage.delta)

/-- The text of the frames and the final update. -/
def painted (b : Block) : String := b.framed ++ (b.closing.map Closing.delta).getD ""

def events (b : Block) : List ViewEvent :=
  .sessionStarted b.session b.model :: .stateChanged b.session .streaming ::
    b.passages.flatMap (Passage.events b.session) ++
    b.closing.toList.flatMap (Closing.events b.session b.painted)

def deeds (b : Block) : List Deed :=
  .shown (.sessionStarted b.session b.model) :: .shown (.stateChanged b.session .streaming) ::
    b.passages.flatMap (Passage.deeds b.session) ++
    b.closing.toList.flatMap (Closing.deeds b.session b.painted)

/-- The checks that do not belong to the end of the session. -/
def asides (b : Block) : Nat :=
  b.passages.countP (fun | .check _ => true | _ => false) +
    (b.closing.map fun k ↦ k.later.length).getD 0

end Block

/-! ## Chronicles -/

/-- What is told of all sessions, oldest first. -/
structure Chronicle where
  /-- The checks before the first session. -/
  before : List Check := []
  /-- The sessions before the current one. -/
  older : List Block := []
  current : Option Block := none

namespace Chronicle

def blocks (h : Chronicle) : List Block := h.older ++ h.current.toList

def events (h : Chronicle) : List ViewEvent :=
  h.before.flatMap Check.events ++ h.blocks.flatMap Block.events

def deeds (h : Chronicle) : List Deed :=
  h.before.flatMap Check.deeds ++ h.blocks.flatMap Block.deeds

/-- The checks that do not belong to the end of a session. -/
def asides (h : Chronicle) : Nat := h.before.length + (h.blocks.map Block.asides).sum

end Chronicle

/-! ## The events among the deeds -/

/-- The event that a deed shows. -/
def Deed.event? : Deed → Option ViewEvent
  | .shown e => some e
  | _ => none

theorem filterMap_event?_shown (e : ViewEvent) (ds : List Deed) :
    (.shown e :: ds : List Deed).filterMap Deed.event? = e :: ds.filterMap Deed.event? := rfl

theorem filterMap_event?_map_shown (es : List ViewEvent) :
    (es.map Deed.shown).filterMap Deed.event? = es := by
  induction es with
  | nil => rfl
  | cons e es ih => rw [List.map_cons, filterMap_event?_shown, ih]

theorem Check.filterMap_deeds (k : Check) : k.deeds.filterMap Deed.event? = k.events := by
  rw [Check.deeds, List.filterMap_cons_none rfl, filterMap_event?_map_shown]

theorem Offer.filterMap_deeds (o : Offer) : o.deeds.filterMap Deed.event? = o.events := by
  rw [Offer.deeds, List.filterMap_cons_none rfl, filterMap_event?_map_shown]

theorem Passage.filterMap_deeds (session : Nat) (p : Passage) :
    (p.deeds session).filterMap Deed.event? = p.events session := by
  cases p with
  | frame d h => rfl
  | check k => exact k.filterMap_deeds

theorem filterMap_flatMap_deeds {α : Type} {deeds : α → List Deed} {events : α → List ViewEvent}
    (h : ∀ a, (deeds a).filterMap Deed.event? = events a) (as : List α) :
    (as.flatMap deeds).filterMap Deed.event? = as.flatMap events := by
  rw [List.filterMap_flatMap]
  exact congrArg (as.flatMap ·) (funext h)

theorem filterMap_flatMap_eq_nil {α β γ : Type} {g : α → List β} {f : β → Option γ}
    (h : ∀ a, (g a).filterMap f = []) (as : List α) : (as.flatMap g).filterMap f = [] := by
  rw [List.filterMap_flatMap, List.flatMap_eq_nil_iff]
  exact fun a _ ↦ h a

theorem Closing.filterMap_deeds (session : Nat) (committed : String) (k : Closing) :
    (k.deeds session committed).filterMap Deed.event? = k.events session committed := by
  simp only [Closing.deeds, Closing.events, List.filterMap_append, List.cons_append,
    filterMap_event?_shown, filterMap_event?_map_shown, Check.filterMap_deeds,
    filterMap_flatMap_deeds Offer.filterMap_deeds, filterMap_flatMap_deeds Check.filterMap_deeds]

theorem Block.filterMap_deeds (b : Block) : b.deeds.filterMap Deed.event? = b.events := by
  simp only [Block.deeds, Block.events, List.filterMap_append, List.cons_append,
    filterMap_event?_shown, filterMap_flatMap_deeds (Passage.filterMap_deeds b.session),
    filterMap_flatMap_deeds (Closing.filterMap_deeds b.session b.painted)]

theorem Chronicle.filterMap_deeds (h : Chronicle) :
    h.deeds.filterMap Deed.event? = h.events := by
  simp only [Chronicle.deeds, Chronicle.events, List.filterMap_append,
    filterMap_flatMap_deeds Check.filterMap_deeds, filterMap_flatMap_deeds Block.filterMap_deeds]

end ChatStream
