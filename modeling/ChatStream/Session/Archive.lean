import ChatStream.History

/-!
# Where records go

A controller hands finished records to an archive and reads the usage of the conversation from it.
An archive has a state of any kind, so that a history, a failing store and a store that is not
the source of the usage are all archives.
-/

namespace ChatStream

/-- A record could not be stored. -/
structure Refusal where
  reason : String
  deriving DecidableEq, Repr

/-- What the user is told. -/
def Refusal.message (e : Refusal) : String := "Message store unavailable: " ++ e.reason

/-- What came of handing in a record. -/
structure Receipt (σ : Type) where
  /-- The archive after it. -/
  state : σ
  /-- Why the record was refused, if it was. -/
  refusal : Option Refusal := none
  /-- What the archive logged. -/
  log : List LogLine := []

/-- A place for records, which also measures the conversation. -/
structure Archive (σ : Type) where
  /-- Hands in a record. -/
  commit : σ → Record → Receipt σ
  /-- The number of records kept. -/
  size : σ → Nat
  /-- The usage of a conversation of that many records. -/
  usage : σ → Nat → σ × Usage

/-- A history as an archive: it takes every record and measures what it keeps. -/
def History.archive : Archive History where
  commit t r := { state := t.commit r, log := t.commitLog r }
  size t := t.size
  usage t count := (t, t.usage count)

end ChatStream
