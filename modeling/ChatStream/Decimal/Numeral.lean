/-!
# Decimal numerals

A numeral is a number as it is written: a sign, whole digits, perhaps a fraction, perhaps an
exponent. Reading a text into a numeral and finding the number that it denotes are different
matters; only the first is here, with the digits kept as they stand.
-/

namespace ChatStream.Decimal

/-- A number as it is written. -/
structure Numeral where
  /-- Whether a minus sign comes first. -/
  negative : Bool := false
  /-- The digits before the point. -/
  whole : List Char
  /-- The digits after the point, if there is a point. -/
  fraction : Option (List Char) := none
  /-- The exponent of ten, if one is written. -/
  exponent : Option Int := none
  deriving DecidableEq, Repr

/-- The number that a decimal digit denotes. -/
def digitValue (d : Char) : Nat := d.toNat - '0'.toNat

/-- The most digits that are gathered into a word before they join a long number. -/
def wordDigits : Nat := 18

/-- The number written by the digits of `high`, then those of `low`, as many as the power of ten
`unit` has zeros, and then `ds`. -/
def gatherDigits (high low unit : Nat) : List Char → Nat
  | [] => high * unit + low
  | d :: ds =>
    if unit < Nat.pow 10 wordDigits then gatherDigits high (low * 10 + digitValue d) (unit * 10) ds
    else gatherDigits (high * unit + low) (digitValue d) 10 ds

/-- The number that a run of decimal digits denotes. -/
def ofDigits (ds : List Char) : Nat := gatherDigits 0 0 1 ds

theorem gatherDigits_eq_foldl (high low unit : Nat) (ds : List Char) :
    gatherDigits high low unit ds =
      ds.foldl (fun n d ↦ n * 10 + digitValue d) (high * unit + low) := by
  induction ds generalizing high low unit with
  | nil => rfl
  | cons d ds ih =>
    rw [gatherDigits, List.foldl_cons]
    split
    · rw [ih, ← Nat.add_assoc, ← Nat.mul_assoc, ← Nat.add_mul]
    · rw [ih]

/-- How the digits are gathered makes no difference: each counts ten of the next one. -/
theorem ofDigits_eq_foldl (ds : List Char) :
    ofDigits ds = ds.foldl (fun n d ↦ n * 10 + digitValue d) 0 :=
  gatherDigits_eq_foldl 0 0 1 ds

/-- The decimal digits of a number. -/
def toDigits (n : Nat) : List Char := Nat.toDigits 10 n

/-- A natural number in decimal. -/
def natText (n : Nat) : String := String.ofList (toDigits n)

/-- Splits off the digits at the front. -/
def spanDigits (cs : List Char) : List Char × List Char := cs.span Char.isDigit

namespace Numeral

/-- The exponent as written: its sign always shown. -/
def exponentChars : Int → List Char
  | .ofNat k => 'e' :: '+' :: toDigits k
  | .negSucc k => 'e' :: '-' :: toDigits (k + 1)

/-- The characters of a numeral. -/
def chars (n : Numeral) : List Char :=
  (if n.negative then ['-'] else []) ++ n.whole ++
    (match n.fraction with | some ds => '.' :: ds | none => []) ++
    (match n.exponent with | some e => exponentChars e | none => [])

/-- The text of a numeral. -/
def text (n : Numeral) : String := String.ofList n.chars

/-- Whether the numeral has neither point nor exponent. -/
def isInteger (n : Numeral) : Bool := n.fraction.isNone && n.exponent.isNone

/-- The numeral of an integer. -/
def ofInt : Int → Numeral
  | .ofNat k => { whole := toDigits k }
  | .negSucc k => { negative := true, whole := toDigits (k + 1) }

end Numeral

end ChatStream.Decimal
