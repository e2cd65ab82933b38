import ChatStream.Config.Basic
import ChatStream.Toml.Document

/-!
# Settings from a file

A settings file is a TOML document with six sections. A section may be a table in any of TOML's
spellings, or the array of its values in the order of its keys, where those at the end may be left
out; a date or a time counts as a table without any of the keys. Unknown keys are passed over; a
known key must have a value of the right kind and range.
-/

namespace ChatStream

open Decimal Toml

namespace Config

/-- Reads an integer in `[0, hi]`. -/
def readNatural? (hi : Nat) : Toml.Value → Option Nat
  | .integer n => if 0 ≤ n ∧ n ≤ hi then some n.toNat else none
  | _ => none

/-- Reads a thirty-two bit float; a double is rounded a second time. -/
def readSingle? : Toml.Value → Option Single
  | .integer n => some (.ofInt n)
  | .float x => some x.convert
  | _ => none

/-- Reads a text. -/
def readText? : Toml.Value → Option String
  | .text s => some s
  | _ => none

/-- Reads a truth value. -/
def readTruth? : Toml.Value → Option Bool
  | .truth b => some b
  | _ => none

/-- A change of the settings by one value; nothing when the value will not do. -/
abbrev Setter := Toml.Value → Config → Option Config

/-- A setter from a reader and a change. -/
def setter {α : Type} (read : Toml.Value → Option α) (set : α → Config → Config) : Setter :=
  fun v c ↦ (read v).map (set · c)

/-- The largest 32-bit number. -/
def wordMax : Nat := 0xFFFFFFFF

/-- The largest 64-bit number. -/
def longMax : Nat := 0xFFFFFFFFFFFFFFFF

/-- The sections of a settings file and their keys, in order. -/
def sections : List (String × List (String × Setter)) :=
  [("server",
    [("endpoint", setter readText? fun s c ↦ { c with endpoint := s }),
     ("connect_timeout_ms", setter (readNatural? longMax) fun n c ↦
        { c with connectTimeoutMillis := n }),
     ("request_timeout_secs", setter (readNatural? longMax) fun n c ↦
        { c with requestTimeoutSecs := if n = 0 then none else some n })]),
   ("generation",
    [("model", setter readText? fun s c ↦ { c with model := s }),
     ("temperature", setter readSingle? fun x c ↦
        { c with sampling.temperature := clampTemperature x }),
     ("top_p", setter readSingle? fun x c ↦ { c with sampling.topP := clampTopP x }),
     ("top_k", setter (readNatural? wordMax) fun n c ↦ { c with sampling.topK := n }),
     ("repeat_penalty", setter readSingle? fun x c ↦ { c with sampling.repeatPenalty := x }),
     ("system_prompt", setter readText? fun s c ↦ { c with systemPrompt := some s })]),
   ("render",
    [("frame_rate_hz", setter (readNatural? wordMax) fun n c ↦ { c with frameRate := n })]),
   ("budget",
    [("context_limit", setter (readNatural? wordMax) fun n c ↦ { c with contextLimit := n }),
     ("near_limit_fraction", setter readSingle? fun x c ↦ { c with nearFraction := x }),
     ("summarize_directive", setter readText? fun s c ↦ { c with directive := s })]),
   ("session",
    [("persist_partial_on_cancel", setter readTruth? fun b c ↦
        { c with keepCancelled := b }),
     ("max_messages", setter (readNatural? longMax) fun n c ↦ { c with historyMaxMessages := n }),
     ("max_content_bytes", setter (readNatural? longMax) fun n c ↦
        { c with historyMaxBytes := n })]),
   ("wire",
    [("event_prefix", setter readText? fun s c ↦ { c with wire.marker := s }),
     ("start_sentinel", setter readText? fun s c ↦ { c with wire.announcement := s })])]

/-- Gives the members of a table to the setters of the same names. -/
def applyMembers (setters : List (String × Setter)) (members : List (String × Toml.Value))
    (c : Config) : Option Config :=
  setters.foldlM (fun c (name, set) ↦
    match members.find? (·.1 = name) with
    | some (_, v) => set v c
    | none => some c) c

/-- Gives the items of an array to the setters one by one. -/
def applyItems (setters : List (String × Setter)) (items : List Toml.Value) (c : Config) :
    Option Config :=
  (setters.zip items).foldlM (fun c ((_, set), v) ↦ set v c) c

/-- Gives a section to its setters. -/
def applySection (setters : List (String × Setter)) (v : Toml.Value) (c : Config) :
    Option Config :=
  match v with
  | .table members => applyMembers setters members c
  | .array items => applyItems setters items c
  | .moment => some c
  | _ => none

/-- Applies the text of a settings file; nothing when the text is no settings file. -/
def applyFile? (text : String) (c : Config) : Option Config := do
  let members ← Toml.parse? text
  let c ← applyMembers (sections.map fun (name, setters) ↦ (name, applySection setters)) members c
  return { c with fromFile := true, origin := .file }

end Config

end ChatStream
