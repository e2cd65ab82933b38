import ChatStream.Json.Value

/-!
# Conversation records

A record is one message of a conversation as it is kept: who wrote it, what, when, and what is
known beside. Its JSON form leaves out what is absent, and is read back from an object or from the
array of its fields.
-/

namespace ChatStream

open Json

/-- Who wrote a message. -/
inductive Role
  | user
  | assistant
  | system
  deriving DecidableEq, Repr

namespace Role

/-- The word for a role in JSON. -/
def word : Role → String
  | .user => "user"
  | .assistant => "assistant"
  | .system => "system"

/-- The name of a role in a log line. -/
def name : Role → String
  | .user => "User"
  | .assistant => "Assistant"
  | .system => "System"

/-- The role of a word. -/
def ofWord? (s : String) : Option Role := [user, assistant, system].find? (·.word = s)

/-- Reads a role: its word, or an object whose one member has that name and no value. -/
def ofTree? : Tree → Option Role
  | .text (some s) => ofWord? s
  | .object [(some s, .null)] => ofWord? s
  | _ => none

end Role

/-- The `n`-th message id that a program gives out. -/
def messageId (n : Nat) : String := "msg_" ++ Decimal.natText n

/-- One message of a conversation. -/
structure Record where
  id : String
  role : Role
  content : String
  /-- When the record was made, in milliseconds. -/
  timestamp : Int
  /-- The model that wrote it. -/
  model : Option String := none
  /-- The estimated tokens of the content. -/
  tokenCount : Option Nat := none
  deriving DecidableEq, Repr

namespace Record

/-- The names of the fields, in the order of the array form. -/
def fieldNames : List String := ["id", "role", "content", "timestamp_ms", "model", "token_count"]

/-- The JSON tree of a record. -/
def tree (r : Record) : Tree :=
  .object (
    [(some "id", .text (some r.id)),
     (some "role", .text (some r.role.word)),
     (some "content", .text (some r.content)),
     (some "timestamp_ms", .numeral (.ofInt r.timestamp))] ++
    (r.model.toList.map fun m ↦ (some "model", .text (some m))) ++
    (r.tokenCount.toList.map fun n ↦ (some "token_count", .numeral (.ofInt n))))

/-- The JSON text of a record. -/
def render (r : Record) : String := r.tree.render

/-- Reads a record from a tree. -/
def ofTree? (t : Tree) : Option Record := do
  match ← t.fields? fieldNames with
  | [some id, some role, some content, some timestamp, model, tokenCount] =>
    return {
      id := ← id.string?
      role := ← Role.ofTree? role
      content := ← content.string?
      timestamp := ← timestamp.int? (-0x8000000000000000) 0x7FFFFFFFFFFFFFFF
      model := ← optional? Tree.string? model
      tokenCount := (← optional? (Tree.int? 0 0xFFFFFFFF) tokenCount).map Int.toNat }
  | _ => none

/-- Reads a record from a text. -/
def parse? (s : String) : Option Record := (Tree.parse? s).bind ofTree?

end Record

end ChatStream
