import ChatStream.Decimal.Binary
import ChatStream.Decimal.Numeral

/-!
# Reading numbers

Two ways from a numeral to a float. `Numeral.nearest` takes the nearest float of the format, in
one rounding. `readNumeral?` reads the numerals that people type into a setting: digits on at least
one side of the point, an optional exponent, and the words for infinity and NaN in any case. Whole
numbers are read by their digits, with or without regard to a minus sign.
-/

namespace ChatStream.Decimal

/-- The float nearest to the number that a numeral denotes. -/
def Numeral.nearest {f : Format} (n : Numeral) : Binary f :=
  let frac := n.fraction.getD []
  .ofDecimal n.negative (ofDigits (n.whole ++ frac)) (n.exponent.getD 0 - frac.length)

/-- Splits a leading sign off: whether it was a minus, and what follows. -/
def splitSign : List Char → Bool × List Char
  | '-' :: rest => (true, rest)
  | '+' :: rest => (false, rest)
  | rest => (false, rest)

/-- From this on an exponent takes no more digits: with the first five or six of them it moves any
number of a sensible length out of every format. -/
def exponentLimit : Nat := 0x10000

/-- The exponent that a sign and digits make up, as far as its digits count. -/
def exponentOf (negative : Bool) (ds : List Char) : Int :=
  let e := ds.foldl (fun e d ↦ if e < exponentLimit then e * 10 + digitValue d else e) 0
  if negative then -(e : Int) else e

/-- Reads an exponent's sign and digits; nothing when there are no digits. -/
def exponent? (cs : List Char) : Option (Int × List Char) :=
  let (negative, cs) := splitSign cs
  match spanDigits cs with
  | ([], _) => none
  | (ds, rest) => some (exponentOf negative ds, rest)

/-- Reads an unsigned numeral that makes up the whole of `cs`: digits before or after the point
may be missing, but not both. -/
def unsignedNumeral? (negative : Bool) (cs : List Char) : Option Numeral :=
  let (whole, rest) := spanDigits cs
  let (fraction, rest) : Option (List Char) × List Char :=
    match rest with
    | '.' :: tail => let (ds, rest) := spanDigits tail; (some ds, rest)
    | rest => (none, rest)
  if whole.isEmpty && (fraction.getD []).isEmpty then none
  else
    match rest with
    | [] => some { negative, whole, fraction }
    | c :: tail =>
      if c = 'e' || c = 'E' then
        match exponent? tail with
        | some (e, []) => some { negative, whole, fraction, exponent := some e }
        | _ => none
      else none

/-- Reads a float setting. -/
def readFloat? {f : Format} (s : String) : Option (Binary f) :=
  let (negative, cs) := splitSign s.toList
  let word := String.ofList (cs.map Char.toLower)
  if word = "inf" || word = "infinity" then some (.infinite negative)
  else if word = "nan" then some .nan
  else (unsignedNumeral? negative cs).map Numeral.nearest

/-- Reads a number below `bound` from its digits. -/
def readDigits? (bound : Nat) (cs : List Char) : Option Nat :=
  if cs.isEmpty || !cs.all Char.isDigit then none
  else
    let n := ofDigits cs
    if n < bound then some n else none

/-- Reads a natural number below `bound`: digits, after a plus sign or none. -/
def readNat? (bound : Nat) (s : String) : Option Nat :=
  readDigits? bound (match s.toList with
    | '+' :: rest => rest
    | cs => cs)

/-- Reads an integer that is natural and below `bound`: digits, after a sign or none. Minus zero is
zero. -/
def readInteger? (bound : Nat) (s : String) : Option Nat :=
  match s.toList with
  | '-' :: rest => readDigits? (min bound 1) rest
  | _ => readNat? bound s

end ChatStream.Decimal
