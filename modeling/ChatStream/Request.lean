import ChatStream.Json.Value
import ChatStream.Text.Blank

/-!
# Requests

What the server is asked: a message, a model, sampling parameters, perhaps a system instruction and
files. In JSON the parameters stand among the other members, the instruction is called
`system_prompt`, and what is absent or empty is left out.
-/

namespace ChatStream

open Json Decimal Text

/-- Sampling parameters. -/
structure Sampling where
  temperature : Single
  topP : Single
  topK : Nat
  repeatPenalty : Single
  deriving DecidableEq, Repr

/-- The float nearest to `n / 10`. -/
def tenths (n : Nat) : Single := .ofRatio false n 10

/-- The parameters used when nobody sets them. -/
def Sampling.default : Sampling := ⟨tenths 7, tenths 9, 40, tenths 11⟩

/-- Moves a temperature into `[0, 2]`. -/
def clampTemperature (x : Single) : Single := Binary.clamp (tenths 0) (tenths 20) x

/-- Moves a nucleus threshold into `[0, 1]`. -/
def clampTopP (x : Single) : Single := Binary.clamp (tenths 0) (tenths 10) x

/-- A file that the server already has. -/
structure Attachment where
  /-- The server's name of the file. -/
  id : String
  /-- The user's name of the file. -/
  name : String
  deriving DecidableEq, Repr

/-- One request for an answer. -/
structure Request where
  message : String
  model : String
  sampling : Sampling := .default
  /-- The system instruction. -/
  system : Option String := none
  attachments : List Attachment := []
  deriving DecidableEq, Repr

namespace Request

/-- Sets the temperature, within its bounds. -/
def withTemperature (r : Request) (x : Single) : Request :=
  { r with sampling.temperature := clampTemperature x }

/-- Adds a directive below the system instruction; a blank instruction is replaced. -/
def appendDirective (r : Request) (directive : String) : Request :=
  { r with system := some (match r.system with
      | some existing => if isBlankText existing then directive else existing ++ "\n\n" ++ directive
      | none => directive) }

/-! ## Writing -/

/-- The tree of an attachment. -/
def attachmentTree (a : Attachment) : Tree :=
  .object [(some "id", .text (some a.id)), (some "name", .text (some a.name))]

/-- The members of the sampling parameters. -/
def samplingMembers (p : Sampling) : List (Option String × Tree) :=
  [(some "temperature", floatTree singleLayout p.temperature),
   (some "top_p", floatTree singleLayout p.topP),
   (some "top_k", .numeral (.ofInt p.topK)),
   (some "repeat_penalty", floatTree singleLayout p.repeatPenalty)]

/-- The tree of a request. -/
def tree (r : Request) : Tree :=
  .object (
    [(some "message", .text (some r.message)), (some "model", .text (some r.model))] ++
    samplingMembers r.sampling ++
    (r.system.toList.map fun s ↦ (some "system_prompt", .text (some s))) ++
    (if r.attachments.isEmpty then []
     else [(some "attachments", .array (r.attachments.map attachmentTree))]))

/-- The body of a request. -/
def body (r : Request) : String := r.tree.render

/-! ## Reading -/

/-- The float that a number denotes. -/
def single? (t : Tree) : Option Single :=
  match t.number? with
  | some (.int n) => some (.ofInt n)
  | some (.float x) => some x.convert
  | none => none

/-- Reads an attachment. -/
def attachmentOfTree? (t : Tree) : Option Attachment := do
  match ← t.fields? ["id", "name"] with
  | [some id, some name] => return { id := ← id.string?, name := ← name.string? }
  | _ => none

/-- Reads a list of attachments. -/
def attachmentsOfTree? : Tree → Option (List Attachment)
  | .array items => items.mapM attachmentOfTree?
  | _ => none

/-- The names that have a meaning of their own beside the sampling parameters. -/
def ownNames : List String := ["message", "model", "system_prompt", "attachments"]

/-- Reads a request. Only an object will do, and since any member may turn out to be a sampling
parameter, the values of unknown members must be representable too. -/
def ofTree? : Tree → Option Request
  | .object members => do
    let t := Tree.object members
    let others := members.filter fun m ↦ m.1.all fun k ↦ !ownNames.contains k
    if (others.mapM fun m ↦ Tree.value? (depthLimit - 1) m.2).isNone then none
    else
      match ← t.fields? (ownNames ++ ["temperature", "top_p", "top_k", "repeat_penalty"]) with
      | [some message, some model, system, attachments, some temperature, some topP, some topK,
          some repeatPenalty] =>
        return {
          message := ← message.string?
          model := ← model.string?
          sampling := {
            temperature := ← single? temperature
            topP := ← single? topP
            topK := (← topK.int? 0 0xFFFFFFFF).toNat
            repeatPenalty := ← single? repeatPenalty }
          system := ← optional? Tree.string? system
          attachments := ← match attachments with
            | some t => attachmentsOfTree? t
            | none => some [] }
      | _ => none
  | _ => none

/-- Reads a request from a text. -/
def parse? (s : String) : Option Request := (Tree.parse? s).bind ofTree?

end Request

end ChatStream
