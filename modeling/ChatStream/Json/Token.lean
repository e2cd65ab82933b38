import ChatStream.Decimal.Numeral

/-!
# JSON tokens

The lexical layer of strict JSON: four blanks, six punctuation marks, three words, numerals and
strings. Nothing is interpreted yet. A numeral keeps its digits, however large the number. A string
escape may name half of a surrogate pair whose other half is missing; such a string is well formed
but denotes no text, so its token carries none. That lets a reader skip what it will not use and
still refuse what it cannot represent.
-/

namespace ChatStream.Json

open Decimal

/-- A token of JSON. -/
inductive Token
  | openArray
  | closeArray
  | openObject
  | closeObject
  | comma
  | colon
  | null
  | truth (value : Bool)
  | numeral (n : Numeral)
  /-- A string; `none` when its escapes leave half of a surrogate pair alone. -/
  | text (content : Option String)
  deriving DecidableEq, Repr

/-! ## Strings -/

/-- What one place in a written string stands for. -/
inductive Piece
  /-- A character. -/
  | char (c : Char)
  /-- Half of a surrogate pair. -/
  | half (unit : Nat)
  deriving DecidableEq, Repr

/-- The value of a hexadecimal digit. -/
def hexDigit? (c : Char) : Option Nat :=
  if '0' ≤ c ∧ c ≤ '9' then some (c.toNat - '0'.toNat)
  else if 'a' ≤ c ∧ c ≤ 'f' then some (c.toNat - 'a'.toNat + 10)
  else if 'A' ≤ c ∧ c ≤ 'F' then some (c.toNat - 'A'.toNat + 10)
  else none

/-- The piece written with four hexadecimal digits. -/
def hexPiece? (a b c d : Char) : Option Piece := do
  let n := (((← hexDigit? a) * 16 + (← hexDigit? b)) * 16 + (← hexDigit? c)) * 16 + (← hexDigit? d)
  return if 0xD800 ≤ n ∧ n ≤ 0xDFFF then .half n else .char (Char.ofNat n)

/-- The character that a backslash and `c` stand for. -/
def simpleEscape? : Char → Option Char
  | '"' => some '"'
  | '\\' => some '\\'
  | '/' => some '/'
  | 'b' => some '\x08'
  | 'f' => some '\x0c'
  | 'n' => some '\n'
  | 'r' => some '\x0d'
  | 't' => some '\t'
  | _ => none

/-- Reads the inside of a string up to its closing quote. The pieces read come first, newest
first. -/
def scanString (done : List Piece) : List Char → Option (List Piece × List Char)
  | [] => none
  | '"' :: rest => some (done.reverse, rest)
  | '\\' :: 'u' :: a :: b :: c :: d :: rest =>
    match hexPiece? a b c d with
    | some piece => scanString (piece :: done) rest
    | none => none
  | '\\' :: e :: rest =>
    match simpleEscape? e with
    | some c => scanString (.char c :: done) rest
    | none => none
  | c :: rest => if c = '\\' ∨ c.toNat < 0x20 then none else scanString (.char c :: done) rest

/-- The text that pieces spell: two halves side by side make one character. -/
def spell? (done : String) : List Piece → Option String
  | [] => some done
  | .char c :: rest => spell? (done.push c) rest
  | .half hi :: .half lo :: rest =>
    if hi < 0xDC00 ∧ 0xDC00 ≤ lo then
      spell? (done.push (Char.ofNat (0x10000 + (hi - 0xD800) * 0x400 + (lo - 0xDC00)))) rest
    else none
  | .half _ :: _ => none

/-- A character as it is written inside a string: quotes, backslashes and controls are escaped,
all else stands for itself. -/
def escapeChar (c : Char) : List Char :=
  if c = '"' then ['\\', '"']
  else if c = '\\' then ['\\', '\\']
  else if c = '\x08' then ['\\', 'b']
  else if c = '\t' then ['\\', 't']
  else if c = '\n' then ['\\', 'n']
  else if c = '\x0c' then ['\\', 'f']
  else if c = '\x0d' then ['\\', 'r']
  else if c.toNat < 0x20 then
    ['\\', 'u', '0', '0', Nat.digitChar (c.toNat / 16), Nat.digitChar (c.toNat % 16)]
  else [c]

/-- A text as a JSON string. -/
def quote (s : String) : String :=
  (s.toList.foldl (fun out c ↦ (escapeChar c).foldl String.push out) "\"").push '"'

/-! ## Numerals -/

/-- Reads the exponent of a numeral, if one follows. -/
def scanExponent? (cs : List Char) : Option (Option Int × List Char) :=
  match cs with
  | c :: rest =>
    if c = 'e' ∨ c = 'E' then
      let (negative, rest) : Bool × List Char :=
        match rest with
        | '-' :: r => (true, r)
        | '+' :: r => (false, r)
        | r => (false, r)
      match spanDigits rest with
      | ([], _) => none
      | (ds, rest) => some (some (if negative then -(ofDigits ds : Int) else ofDigits ds), rest)
    else some (none, cs)
  | [] => some (none, [])

/-- Reads a numeral: no zero before another digit, and digits on both sides of a point. -/
def scanNumeral? (cs : List Char) : Option (Numeral × List Char) :=
  let (negative, cs) : Bool × List Char :=
    match cs with
    | '-' :: rest => (true, rest)
    | _ => (false, cs)
  match spanDigits cs with
  | ([], _) => none
  | ('0' :: _ :: _, _) => none
  | (whole, '.' :: rest) =>
    match spanDigits rest with
    | ([], _) => none
    | (frac, rest) =>
      (scanExponent? rest).map fun (exponent, rest) ↦
        ({ negative, whole, fraction := some frac, exponent }, rest)
  | (whole, rest) =>
    (scanExponent? rest).map fun (exponent, rest) ↦ ({ negative, whole, exponent }, rest)

/-! ## Tokens -/

/-- The blanks of JSON. -/
def isSpace (c : Char) : Bool := c = ' ' || c = '\t' || c = '\n' || c = '\x0d'

/-- Reads the token at the front. -/
def scanToken? : List Char → Option (Token × List Char)
  | '[' :: rest => some (.openArray, rest)
  | ']' :: rest => some (.closeArray, rest)
  | '{' :: rest => some (.openObject, rest)
  | '}' :: rest => some (.closeObject, rest)
  | ',' :: rest => some (.comma, rest)
  | ':' :: rest => some (.colon, rest)
  | 'n' :: 'u' :: 'l' :: 'l' :: rest => some (.null, rest)
  | 't' :: 'r' :: 'u' :: 'e' :: rest => some (.truth true, rest)
  | 'f' :: 'a' :: 'l' :: 's' :: 'e' :: rest => some (.truth false, rest)
  | '"' :: rest => (scanString [] rest).map fun (pieces, rest) ↦ (.text (spell? "" pieces), rest)
  | cs => (scanNumeral? cs).map fun (n, rest) ↦ (.numeral n, rest)

/-- Reads tokens to the end of the text. Every token takes at least one character, so the length
of the text is fuel enough. -/
def scanTokens (done : List Token) : Nat → List Char → Option (List Token)
  | _, [] => some done.reverse
  | 0, _ => none
  | fuel + 1, c :: rest =>
    if isSpace c then scanTokens done fuel rest
    else
      match scanToken? (c :: rest) with
      | some (t, rest) => scanTokens (t :: done) fuel rest
      | none => none

/-- The tokens of a text, if it is made of tokens. -/
def tokens? (s : String) : Option (List Token) :=
  let cs := s.toList
  scanTokens [] cs.length cs

/-- A token as it is written. -/
def Token.render : Token → String
  | .openArray => "["
  | .closeArray => "]"
  | .openObject => "\x7b"
  | .closeObject => "\x7d"
  | .comma => ","
  | .colon => ":"
  | .null => "null"
  | .truth true => "true"
  | .truth false => "false"
  | .numeral n => n.text
  | .text (some s) => quote s
  | .text none => "\"\\ud800\""

end ChatStream.Json
