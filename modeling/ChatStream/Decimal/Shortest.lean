import ChatStream.Decimal.Binary
import ChatStream.Decimal.Numeral

/-!
# The shortest decimal that reads back

The decimals that round to a given float fill an interval around it. A float is written with the
fewest digits that some decimal of that interval has, and among those with that many digits with
the nearest. Only the two neighbours of the float on each decimal grid need be looked at: if any
point of the grid lies in the interval, one of the two does.

How the digits are laid out is a `Layout`, one for each place where floats are written.
-/

namespace ChatStream.Decimal

/-- Which of two equally near decimals is written. -/
inductive Tie
  /-- The one whose last digit is even. -/
  | toEven
  /-- The greater one. -/
  | up
  deriving DecidableEq, Repr

/-- The decimals that round to a float, in units of a quarter of its last place. -/
structure Rounding where
  /-- The lower end. -/
  low : Nat
  /-- The float itself. -/
  mid : Nat
  /-- The upper end. -/
  high : Nat
  /-- Whether the ends round to the float too. -/
  closed : Bool
  /-- The exponent of two of the unit. -/
  exponent : Int

/-- The decimals that round to `mantissa · 2 ^ exponent`. Below a power of two the floats lie
twice as close, so that side of the interval is half as wide. -/
def Rounding.of (f : Format) (mantissa : Nat) (exponent : Int) : Rounding where
  low := if mantissa = Nat.pow 2 (f.precision - 1) ∧ f.lowest < exponent then 4 * mantissa - 1
    else 4 * mantissa - 2
  mid := 4 * mantissa
  high := 4 * mantissa + 2
  closed := mantissa % 2 = 0
  exponent := exponent - 2

/-- Whether `c · 10 ^ t` rounds to the float. -/
def Rounding.holds (r : Rounding) (c : Nat) (t : Int) : Bool :=
  let (p, q) := scaled c 10 t
  let (u, v) := scaled 1 2 r.exponent
  let x := p * v
  let lo := r.low * u * q
  let hi := r.high * u * q
  if r.closed then lo ≤ x && x ≤ hi else lo < x && x < hi

/-- The greatest `e` with `10 ^ e ≤ n / d`, for positive `n` and `d`. -/
def floorLog10 (n d : Nat) : Int :=
  let e : Int := ((toDigits n).length : Int) - ((toDigits d).length : Int)
  let (p, q) := scaled 1 10 e
  if p * d ≤ n * q then e else e - 1

/-- Digits and the exponent of ten of the first digit. -/
structure Digits where
  /-- The digits, the first and the last of them not zero. -/
  digits : List Char
  /-- The exponent of ten of the first digit. -/
  exponent : Int
  deriving DecidableEq, Repr

/-- The digits of `c · 10 ^ t`, for a positive `c`, without zeros at the end. -/
def Digits.of (c : Nat) (t : Int) : Digits :=
  let ds := toDigits c
  { digits := (ds.reverse.dropWhile (· = '0')).reverse, exponent := t + ds.length - 1 }

/-- The decimal on the grid of multiples of `10 ^ t` that rounds to the float and is nearest to
it, if there is one. -/
def Rounding.onGrid? (r : Rounding) (tie : Tie) (t : Int) : Option Nat :=
  let (n, d) := scaled r.mid 2 r.exponent
  let (p, q) := scaled 1 10 t
  let num := n * q
  let den := d * p
  let c := num / den
  match r.holds c t && c != 0, r.holds (c + 1) t with
  | true, false => some c
  | false, true => some (c + 1)
  | false, false => none
  | true, true =>
    let rest := 2 * (num % den)
    if rest < den then some c
    else if den < rest then some (c + 1)
    else match tie with
      | .toEven => some (if c % 2 = 0 then c else c + 1)
      | .up => some (c + 1)

/-- The shortest digits that read back as `mantissa · 2 ^ exponent`, for a positive mantissa.
Seventeen digits are always enough. -/
def shortest (f : Format) (tie : Tie) (mantissa : Nat) (exponent : Int) : Digits :=
  let r := Rounding.of f mantissa exponent
  let (n, d) := scaled mantissa 2 exponent
  let e := floorLog10 n d
  let grids := (List.range 17).map fun (k : Nat) ↦ e - k
  match grids.findSome? fun t ↦ (r.onGrid? tie t).map (Digits.of · t) with
  | some ds => ds
  | none => { digits := toDigits mantissa, exponent := 0 }

/-- How shortest digits are laid out. -/
structure Layout where
  /-- The exponents of the first digit for which no exponent is written; no bound for `none`. -/
  plain : Option (Int × Int)
  /-- Whether a whole number written plainly gets the fraction `.0`. -/
  pointZero : Bool
  /-- Which of two equally near decimals is written. -/
  tie : Tie

/-- Plain digits throughout, whole numbers without a point. -/
def Layout.display : Layout := ⟨none, false, .up⟩

namespace Layout

/-- Whether a number whose first digit has the exponent `e` is written without an exponent. -/
def isPlain (l : Layout) (e : Int) : Bool :=
  match l.plain with
  | none => true
  | some (lo, hi) => lo ≤ e && e ≤ hi

/-- Lays out the digits of a positive number. -/
def arrange (l : Layout) (negative : Bool) (ds : Digits) : Numeral :=
  let n : Int := ds.digits.length
  if l.isPlain ds.exponent then
    if ds.exponent < 0 then
      { negative, whole := ['0'],
        fraction := some (List.replicate (-ds.exponent - 1).toNat '0' ++ ds.digits) }
    else if n ≤ ds.exponent + 1 then
      { negative, whole := ds.digits ++ List.replicate (ds.exponent + 1 - n).toNat '0',
        fraction := if l.pointZero then some ['0'] else none }
    else
      { negative, whole := ds.digits.take (ds.exponent + 1).toNat,
        fraction := some (ds.digits.drop (ds.exponent + 1).toNat) }
  else
    { negative, whole := ds.digits.take 1,
      fraction := if n ≤ 1 then none else some (ds.digits.drop 1),
      exponent := some ds.exponent }

/-- The numeral of a finite float; nothing for infinities and NaN. -/
def numeral? {f : Format} (l : Layout) : Binary f → Option Numeral
  | .finite s 0 _ =>
    some { negative := s, whole := ['0'], fraction := if l.pointZero then some ['0'] else none }
  | .finite s m e => some (l.arrange s (shortest f l.tie m e))
  | _ => none

end Layout

/-- A float in plain digits. -/
def Binary.display {f : Format} (x : Binary f) : String :=
  match Layout.display.numeral? x, x with
  | some n, _ => n.text
  | none, .infinite true => "-inf"
  | none, .infinite false => "inf"
  | none, _ => "NaN"

end ChatStream.Decimal
