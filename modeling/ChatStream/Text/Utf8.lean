/-!
# UTF-8 as it arrives

Bytes reach a reader in pieces that may end inside a character, so decoding is a machine that
takes one byte at a time and holds back the bytes of a character that has only begun. It never
refuses: a run of bytes that can no longer become a character is written as one U+FFFD, and the
byte that broke it is looked at afresh. Each U+FFFD then stands for one *maximal subpart*, the
longest start of a well-formed character that the input offers at that place, or one lone byte.

`lossy` says the same of a whole byte string without a machine: it cuts off the longest
well-formed start, character by character. That the two agree is what makes the cuts between
pieces invisible.
-/

namespace ChatStream

/-- A byte string. -/
abbrev Bytes := List UInt8

namespace Utf8

/-- How the bytes since the last character boundary stand. -/
inductive Standing
  /-- They are exactly one character. -/
  | complete (c : Char)
  /-- They are the start of a character, with more to come. -/
  | unfinished
  /-- No character starts with them. -/
  | broken
  deriving DecidableEq, Repr

/-- A byte that continues a character. -/
def isContinuation (b : UInt8) : Bool := 0x80 ≤ b && b ≤ 0xBF

/-- The second bytes that may follow the lead byte `a`. The narrower ranges keep out overlong
forms, surrogates and code points past U+10FFFF. -/
def followsLead (a b : UInt8) : Bool :=
  if a == 0xE0 then 0xA0 ≤ b && b ≤ 0xBF
  else if a == 0xED then 0x80 ≤ b && b ≤ 0x9F
  else if a == 0xF0 then 0x90 ≤ b && b ≤ 0xBF
  else if a == 0xF4 then 0x80 ≤ b && b ≤ 0x8F
  else 0xC2 ≤ a && a ≤ 0xF4 && isContinuation b

/-- The six payload bits of a continuation byte. -/
def payload (b : UInt8) : Nat := b.toNat % 64

/-- Where a run of bytes that begins at a character boundary stands. -/
def standing : Bytes → Standing
  | [a] =>
    if a < 0x80 then .complete (Char.ofNat a.toNat)
    else if 0xC2 ≤ a && a ≤ 0xF4 then .unfinished
    else .broken
  | [a, b] =>
    if followsLead a b then
      if a < 0xE0 then .complete (Char.ofNat (a.toNat % 32 * 64 + payload b)) else .unfinished
    else .broken
  | [a, b, c] =>
    if 0xE0 ≤ a && followsLead a b && isContinuation c then
      if a < 0xF0 then
        .complete (Char.ofNat ((a.toNat % 16 * 64 + payload b) * 64 + payload c))
      else .unfinished
    else .broken
  | [a, b, c, d] =>
    if 0xF0 ≤ a && followsLead a b && isContinuation c && isContinuation d then
      .complete (Char.ofNat (((a.toNat % 8 * 64 + payload b) * 64 + payload c) * 64 + payload d))
    else .broken
  | _ => .broken

/-- The character that stands in for bytes that are no character. -/
def replacement : Char := '\uFFFD'

/-- What the next byte makes of the bytes held back: the characters it settles, and what is held
back after it. A byte that breaks a held start settles that start as one replacement and is then
read as the first byte of what follows. -/
def step (held : Bytes) (b : UInt8) : List Char × Bytes :=
  match standing (held ++ [b]) with
  | .complete c => ([c], [])
  | .unfinished => ([], held ++ [b])
  | .broken =>
    if held.isEmpty then ([replacement], [])
    else
      match standing [b] with
      | .complete c => ([replacement, c], [])
      | .unfinished => ([replacement], [b])
      | .broken => ([replacement, replacement], [])

/-- The first character of `bytes` and the number of its bytes, if `bytes` begins with one. -/
def first? (bytes : Bytes) : Option (Nat × Char) :=
  [1, 2, 3, 4].findSome? fun n ↦
    match standing (bytes.take n) with
    | .complete c => some (n, c)
    | _ => none

/-- The length of the longest start of `bytes` that a character could begin with, and at least
one: what a single replacement stands for. -/
def brokenLength (bytes : Bytes) : Nat :=
  (([bytes.take 3, bytes.take 2].find? fun run ↦ standing run = .unfinished).map List.length).getD 1

/-- Decodes a whole byte string, each maximal subpart that is no character becoming one
replacement. Characters go to the end of `done`. -/
def lossyOnto (done : String) : (bytes : Bytes) → String
  | [] => done
  | b :: rest =>
    match first? (b :: rest) with
    | some (n, c) => lossyOnto (done.push c) (rest.drop (n - 1))
    | none => lossyOnto (done.push replacement) (rest.drop (brokenLength (b :: rest) - 1))
  termination_by bytes => bytes.length
  decreasing_by all_goals simp only [List.length_drop, List.length_cons]; omega

/-- Decodes a whole byte string, each maximal subpart that is no character becoming one
replacement. -/
def lossy (bytes : Bytes) : String := lossyOnto "" bytes

/-- Decodes a byte string that is well-formed throughout. -/
def decode? (bytes : Bytes) : Option String := String.fromUTF8? ⟨bytes.toArray⟩

/-- The bytes of a text. -/
def encode (s : String) : Bytes := s.toUTF8.data.toList

end Utf8

end ChatStream
