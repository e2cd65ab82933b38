import ChatStream.Decimal.Binary
import ChatStream.Decimal.Numeral
import ChatStream.Log

/-!
# The context budget

A conversation may fill a model's context window only so far. The budget compares the estimated
tokens of a conversation with a threshold, a fraction of the window, and reports the crossing of
the threshold once: the next report comes after the estimate has been below it again.

The threshold is counted in basis points, so that eight tenths of a thousand are eight hundred
although no binary fraction is eight tenths.

The budget also holds the request to summarize with the next message, which is taken once.
-/

namespace ChatStream

open Decimal

/-- The largest token count that is reported; more is reported as this. -/
def maxTokens : Nat := 0xFFFFFFFF

/-- An estimate of the tokens of a text: one for every four characters begun. -/
def tokenEstimate (s : String) : Nat := min maxTokens ((s.length + 3) / 4)

/-- The usage of a conversation at one moment. -/
structure Usage where
  /-- The estimated tokens. -/
  tokens : Nat
  /-- The context window, or zero when it is not known. -/
  limit : Nat
  deriving DecidableEq, Repr

/-- The conversation has come near its limit. -/
structure NearLimit where
  tokens : Nat
  limit : Nat
  deriving DecidableEq, Repr

/-- What is logged with a notice. -/
def NearLimit.log (n : NearLimit) : LogLine :=
  { level := .info, message := "Conversation is near the context limit",
    fields := [("estimated_tokens", natText n.tokens), ("limit", natText n.limit)] }

/-- The usage of one conversation against its limit. -/
structure Budget where
  /-- The context window in tokens. -/
  limit : Nat
  /-- The fraction of the window from which on the conversation is near its limit. -/
  nearFraction : Single
  /-- The estimate seen last. -/
  tokens : Nat := 0
  /-- The notice has been given, and the estimate has not been below the threshold since. -/
  notified : Bool := false
  /-- The next message is to carry the directive to summarize. -/
  summarize : Bool := false
  deriving DecidableEq, Repr

namespace Budget

/-- The smallest fraction in use: the distance from one to the next float. -/
def smallestFraction : Single := .finite false 0x800000 (-46)

/-- One. -/
def wholeWindow : Single := .finite false 0x800000 (-23)

/-- A budget for a context window. -/
def new (limit : Nat) (nearFraction : Single) : Budget where
  limit := max limit 1
  nearFraction := Binary.clamp smallestFraction wholeWindow nearFraction

/-- The near fraction in basis points, to the nearest. -/
def basisPoints (b : Budget) : Nat := (b.nearFraction.scaleUp 10000).roundToNat

/-- The estimate from which on the conversation is near its limit. -/
def threshold (b : Budget) : Nat := (b.limit * b.basisPoints + 9999) / 10000

/-- Whether the last estimate was at the threshold or above. -/
def isNear (b : Budget) : Bool := b.threshold ≤ b.tokens

/-- Takes the usage as it is now, and returns the notice that is due. -/
def observe (b : Budget) (u : Usage) : Budget × Option NearLimit :=
  let b := { b with limit := if 0 < u.limit then u.limit else b.limit, tokens := u.tokens }
  if !b.isNear then ({ b with notified := false }, none)
  else if b.notified then (b, none)
  else ({ b with notified := true }, some { tokens := b.tokens, limit := b.limit })

/-- Asks for a summary with the next message. -/
def requestSummary (b : Budget) : Budget := { b with summarize := true }

/-- Withdraws that request. -/
def clearSummary (b : Budget) : Budget := { b with summarize := false }

/-- Takes the request: whether there was one, and the budget without it. -/
def takeSummary (b : Budget) : Budget × Bool := ({ b with summarize := false }, b.summarize)

end Budget

end ChatStream
