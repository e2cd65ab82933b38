import ChatStream.Budget
import ChatStream.Record

/-!
# The history of a conversation

A history keeps the records of a conversation in memory, the oldest first. It may be limited in
records and in bytes of content; past a limit the oldest records go, but never the one that was
just added. Zero stands for no limit.
-/

namespace ChatStream

open Decimal

/-- Whether `n` is past a limit; zero is no limit. -/
def pastLimit (limit n : Nat) : Bool := 0 < limit && limit < n

/-- The records of a conversation, within limits. -/
structure History where
  /-- The records, oldest first. -/
  records : List Record := []
  /-- The bytes of their contents together. -/
  contentBytes : Nat := 0
  /-- The most records kept. -/
  maxMessages : Nat := 0
  /-- The most bytes of content kept. -/
  maxBytes : Nat := 0
  /-- The context window that is reported with the usage, or zero. -/
  contextLimit : Nat := 0
  deriving DecidableEq, Repr

namespace History

/-- The number of records. -/
def size (t : History) : Nat := t.records.length

/-- Whether there are no records. -/
def isEmpty (t : History) : Bool := t.records.isEmpty

/-- Removes the oldest of `count` records while a limit is passed and another one is left. Returns
the records, their bytes and the number removed. -/
def prune (maxMessages maxBytes : Nat) :
    List Record → (count bytes removed : Nat) → List Record × Nat × Nat
  | r :: s :: rest, count, bytes, removed =>
    if pastLimit maxMessages count || pastLimit maxBytes bytes then
      prune maxMessages maxBytes (s :: rest) (count - 1) (bytes - r.content.utf8ByteSize)
        (removed + 1)
    else (r :: s :: rest, bytes, removed)
  | rs, _, bytes, removed => (rs, bytes, removed)

/-- Adds a record and keeps within the limits. Returns how many records went. -/
def commitCounting (t : History) (r : Record) : History × Nat :=
  let all := t.records ++ [r]
  let (records, contentBytes, removed) :=
    prune t.maxMessages t.maxBytes all all.length (t.contentBytes + r.content.utf8ByteSize) 0
  ({ t with records, contentBytes }, removed)

/-- Adds a record and keeps within the limits. -/
def commit (t : History) (r : Record) : History := (t.commitCounting r).1

/-- What is logged when a record is added: that older ones went. -/
def commitLog (t : History) (r : Record) : List LogLine :=
  let (t', removed) := t.commitCounting r
  if 0 < removed then
    [{ level := .debug, message := "Pruned transcript",
       fields := [("removed", natText removed), ("remaining", natText t'.size),
         ("bytes", natText t'.contentBytes)] }]
  else []

/-- Forgets the records. -/
def clear (t : History) : History := { t with records := [], contentBytes := 0 }

/-- The tokens of a record: its own count, or else an estimate. -/
def recordTokens (r : Record) : Nat := r.tokenCount.getD (tokenEstimate r.content)

/-- The usage of the last `count` records. -/
def usage (t : History) (count : Nat) : Usage where
  tokens := (t.records.drop (t.records.length - count)).foldl
    (fun sum r ↦ min maxTokens (sum + recordTokens r)) 0
  limit := t.contextLimit

/-- The number of records of a role. -/
def count (t : History) (role : Role) : Nat := t.records.countP (·.role = role)

end History

end ChatStream
