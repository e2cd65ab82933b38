/-!
# Session names

A session is known outside by a name made of 128 random bits, laid out as a version 4 UUID without
hyphens. Six of the bits are fixed by that layout.
-/

namespace ChatStream

/-- The lower-case hexadecimal digits of `n`, exactly `count` of them. -/
def hexDigits (count n : Nat) : List Char :=
  (List.range count).map fun i ↦ Nat.digitChar (n / Nat.pow 16 (count - 1 - i) % 16)

/-- Two random words as the digits of a version 4 UUID. -/
def uuidDigits (hi lo : UInt64) : List Char :=
  let hi := hi.toNat / 0x10000 * 0x10000 + 0x4000 + hi.toNat % 0x1000
  let lo := 0x8000000000000000 + lo.toNat % 0x4000000000000000
  hexDigits 16 hi ++ hexDigits 16 lo

/-- What the name of every session starts with. -/
def sessionNameStart : String := "stream_"

/-- The name of the session with the given random words. -/
def sessionName (hi lo : UInt64) : String := sessionNameStart ++ String.ofList (uuidDigits hi lo)

end ChatStream
