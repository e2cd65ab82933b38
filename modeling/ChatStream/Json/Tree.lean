import ChatStream.Json.Token

/-!
# JSON trees

A tree is the structure of a JSON text with its leaves as written: numerals are not yet numbers,
members stand in their order and may repeat. Any well-formed text has a tree, however deep; what a
reader makes of it (numbers, depth limits, repeated names) is decided where the tree is used.

Reading is a machine over tokens with the open brackets as its stack, one step per token, so its
depth is bounded by nothing but the text. Writing turns a tree into its tokens and is compact.
-/

namespace ChatStream.Json

open Decimal

/-- The structure of a JSON text. -/
inductive Tree
  | null
  | truth (value : Bool)
  | numeral (n : Numeral)
  /-- A string; `none` when it denotes no text. -/
  | text (content : Option String)
  | array (items : List Tree)
  | object (members : List (Option String × Tree))
  deriving Repr

instance : Inhabited Tree := ⟨.null⟩

/-! ## Writing -/

mutual

/-- The tokens of a tree. -/
def Tree.tokens : Tree → List Token
  | .null => [.null]
  | .truth b => [.truth b]
  | .numeral n => [.numeral n]
  | .text s => [.text s]
  | .array items => .openArray :: itemTokens items ++ [.closeArray]
  | .object members => .openObject :: memberTokens members ++ [.closeObject]

/-- The tokens of the items of an array. -/
def itemTokens : List Tree → List Token
  | [] => []
  | [t] => t.tokens
  | t :: ts => t.tokens ++ .comma :: itemTokens ts

/-- The tokens of the members of an object. -/
def memberTokens : List (Option String × Tree) → List Token
  | [] => []
  | [(k, t)] => .text k :: .colon :: t.tokens
  | (k, t) :: ms => .text k :: .colon :: t.tokens ++ .comma :: memberTokens ms

end

/-- The compact text of a tree. -/
def Tree.render (t : Tree) : String := t.tokens.foldl (fun out tok ↦ out ++ tok.render) ""

/-! ## Reading -/

/-- An open bracket, with what has been read inside it, newest first. -/
inductive Level
  | array (items : List Tree)
  /-- The name, once read, waits for its value. -/
  | object (members : List (Option String × Tree)) (name : Option String)
  deriving Repr

/-- What may come next. -/
inductive Pending
  | value
  /-- Just after an opening bracket: a value or the closing bracket. -/
  | firstItem
  /-- Just after an opening brace: a name or the closing brace. -/
  | firstName
  | name
  | colon
  /-- A comma or the closing bracket. -/
  | separator
  deriving DecidableEq, Repr

/-- How far a text has been read. -/
inductive Progress
  | reading (levels : List Level) (pending : Pending)
  | done (t : Tree)
  deriving Repr

/-- Hands a finished value to the innermost open bracket. -/
def deliver : List Level → Tree → Progress
  | [], t => .done t
  | .array items :: up, t => .reading (.array (t :: items) :: up) .separator
  | .object members name :: up, t => .reading (.object ((name, t) :: members) none :: up) .separator

/-- Reads the first token of a value. -/
def beginValue (levels : List Level) : Token → Option Progress
  | .null => some (deliver levels .null)
  | .truth b => some (deliver levels (.truth b))
  | .numeral n => some (deliver levels (.numeral n))
  | .text s => some (deliver levels (.text s))
  | .openArray => some (.reading (.array [] :: levels) .firstItem)
  | .openObject => some (.reading (.object [] none :: levels) .firstName)
  | _ => none

/-- Closes the innermost bracket, if `tok` does that. -/
def closeLevel : List Level → Token → Option Progress
  | .array items :: up, .closeArray => some (deliver up (.array items.reverse))
  | .object members _ :: up, .closeObject => some (deliver up (.object members.reverse))
  | _, _ => none

/-- Reads the name of a member. -/
def takeName : List Level → Token → Option Progress
  | .object members _ :: up, .text name => some (.reading (.object members name :: up) .colon)
  | _, _ => none

/-- Reads one token. Nothing may follow a finished text. -/
def Progress.step : Progress → Token → Option Progress
  | .done _, _ => none
  | .reading levels .value, tok => beginValue levels tok
  | .reading levels .firstItem, tok =>
    if tok = .closeArray then closeLevel levels tok else beginValue levels tok
  | .reading levels .firstName, tok =>
    if tok = .closeObject then closeLevel levels tok else takeName levels tok
  | .reading levels .name, tok => takeName levels tok
  | .reading levels .colon, tok => if tok = .colon then some (.reading levels .value) else none
  | .reading levels .separator, tok =>
    match levels, tok with
    | .array _ :: _, .comma => some (.reading levels .value)
    | .object _ _ :: _, .comma => some (.reading levels .name)
    | _, _ => closeLevel levels tok

/-- Reads tokens one after another. -/
def Progress.run : Progress → List Token → Option Progress
  | p, [] => some p
  | p, tok :: toks =>
    match p.step tok with
    | some p => p.run toks
    | none => none

/-- The tree of a list of tokens, if they are exactly one value. -/
def Tree.ofTokens? (toks : List Token) : Option Tree :=
  match Progress.run (.reading [] .value) toks with
  | some (.done t) => some t
  | _ => none

/-- The tree of a text, if the text is strict JSON. -/
def Tree.parse? (s : String) : Option Tree := (tokens? s).bind Tree.ofTokens?

/-! ## Structures -/

/-- Finds the member called `name`; nothing when it occurs twice. -/
def uniqueMember? (members : List (Option String × Tree)) (name : String) :
    Option (Option Tree) :=
  match members.filter (·.1 = some name) with
  | [] => some none
  | [(_, t)] => some (some t)
  | _ => none

/-- The fields of a structure with the given names, in their order, absent ones as `none`. A
structure is written as an object, where every name must denote text, a known name comes at most
once and an unknown one is passed over; or as the array of its fields, where those at the end may
be left out. -/
def Tree.fields? (names : List String) : Tree → Option (List (Option Tree))
  | .object members =>
    if members.any (·.1.isNone) then none else names.mapM (uniqueMember? members)
  | .array items =>
    if names.length < items.length then none
    else some (items.map some ++ List.replicate (names.length - items.length) none)
  | _ => none

end ChatStream.Json
