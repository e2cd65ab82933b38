/-!
# Binary floating point, exactly

A binary format has a precision and a range of exponents. Its finite numbers are `± m · 2 ^ e`
with natural `m` below `2 ^ precision`, so comparison, conversion and rounding are arithmetic on
integers and nothing is left to the machine's own floats.

Every operation is the exact result followed by one rounding, to the nearest number of the format
and, halfway, to the one with the even mantissa.
-/

namespace ChatStream.Decimal

/-- A binary floating-point format. -/
structure Format where
  /-- Bits of a full mantissa. -/
  precision : Nat
  /-- The exponent of the smallest positive number. -/
  lowest : Int
  /-- The largest exponent. -/
  highest : Int
  deriving DecidableEq, Repr

/-- Thirty-two bit floats. -/
def Format.single : Format := ⟨24, -149, 104⟩

/-- Sixty-four bit floats. -/
def Format.double : Format := ⟨53, -1074, 971⟩

/-- A number of the format `f`. -/
inductive Binary (f : Format)
  /-- The number `± mantissa · 2 ^ exponent`; zero keeps its sign. -/
  | finite (negative : Bool) (mantissa : Nat) (exponent : Int)
  /-- Infinity. -/
  | infinite (negative : Bool)
  /-- Not a number. -/
  | nan
  deriving DecidableEq, Repr

/-- `n / d` to the nearest integer, a half to the even one. -/
def roundHalfEven (n d : Nat) : Nat :=
  let k := n / d
  let r := n % d
  if 2 * r < d then k else if d < 2 * r then k + 1 else if k % 2 = 0 then k else k + 1

/-- `n / d` to the nearest integer, a half away from zero. -/
def roundHalfUp (n d : Nat) : Nat := (2 * n + d) / (2 * d)

/-- `n · b ^ e` as a ratio of natural numbers. -/
def scaled (n b : Nat) (e : Int) : Nat × Nat :=
  if 0 ≤ e then (n * Nat.pow b e.toNat, 1) else (n, Nat.pow b (-e).toNat)

/-- The greatest `e` with `2 ^ e ≤ n / d`, for positive `n` and `d`. -/
def floorLog2 (n d : Nat) : Int :=
  let e : Int := (Nat.log2 n : Int) - (Nat.log2 d : Int)
  let (p, q) := scaled 1 2 e
  if p * d ≤ n * q then e else e - 1

namespace Binary

variable {f g : Format}

/-- Zero. -/
def zero (negative : Bool := false) : Binary f := .finite negative 0 f.lowest

instance : Inhabited (Binary f) := ⟨zero⟩

/-- The number of the format nearest to `± n / d`. -/
def ofRatio (negative : Bool) (n d : Nat) : Binary f :=
  if n = 0 then zero negative
  else
    let e := max f.lowest (floorLog2 n d - f.precision + 1)
    let (p, q) := scaled 1 2 e
    let m := roundHalfEven (n * q) (d * p)
    let (m, e) := if m = Nat.pow 2 f.precision then (Nat.pow 2 (f.precision - 1), e + 1) else (m, e)
    if f.highest < e then .infinite negative else .finite negative m e

/-- The number of the format nearest to an integer. -/
def ofInt (n : Int) : Binary f := ofRatio (n < 0) n.natAbs 1

/-- The number of the format nearest to `± n · 10 ^ e`. Outside four hundred places the answer is
known without the power of ten: three bits are less than a place, and ten bits are more than three
places. -/
def ofDecimal (negative : Bool) (n : Nat) (e : Int) : Binary f :=
  if n = 0 then zero negative
  else
    let bits : Int := Nat.log2 n
    if bits / 3 + 1 + e < -400 then zero negative
    else if 400 < bits * 3 / 10 + e then .infinite negative
    else
      let (p, q) := scaled n 10 e
      ofRatio negative p q

/-- The magnitude of a finite number as a ratio. -/
def ratio (m : Nat) (e : Int) : Nat × Nat := scaled m 2 e

/-- The number in another format. -/
def convert : Binary f → Binary g
  | .finite s m e => let (p, q) := ratio m e; ofRatio s p q
  | .infinite s => .infinite s
  | .nan => .nan

/-- Multiplies by a natural number. -/
def scaleUp (x : Binary f) (k : Nat) : Binary f :=
  match x with
  | .finite s m e => let (p, q) := ratio m e; ofRatio s (p * k) q
  | x => x

/-- Divides by a positive natural number. -/
def scaleDown (x : Binary f) (k : Nat) : Binary f :=
  match x with
  | .finite s m e => let (p, q) := ratio m e; ofRatio s p (q * k)
  | x => x

/-- The opposite number. -/
def neg : Binary f → Binary f
  | .finite s m e => .finite (!s) m e
  | .infinite s => .infinite (!s)
  | .nan => .nan

/-- Whether the number is zero, of either sign. -/
def isZero : Binary f → Bool
  | .finite _ m _ => m = 0
  | _ => false

/-- Whether the number is finite. -/
def isFinite : Binary f → Bool
  | .finite .. => true
  | _ => false

/-- The signed numerator and the denominator of a finite number. -/
def signedRatio (s : Bool) (m : Nat) (e : Int) : Int × Nat :=
  let (p, q) := ratio m e
  (if s then -(p : Int) else p, q)

/-- Whether one number is below another. Nothing is below or above a NaN. -/
def lt : Binary f → Binary f → Bool
  | .nan, _ => false
  | _, .nan => false
  | .infinite s, .infinite t => s && !t
  | .infinite s, .finite .. => s
  | .finite .., .infinite t => !t
  | .finite s m e, .finite s' m' e' =>
    let (p, q) := signedRatio s m e
    let (p', q') := signedRatio s' m' e'
    p * q' < p' * q

/-- Whether one number is at most another; a NaN is not. -/
def le (x y : Binary f) : Bool := x != .nan && y != .nan && !lt y x

/-- Moves a number into `[lo, hi]`; a NaN stays one, and a number inside stays as it is. -/
def clamp (lo hi x : Binary f) : Binary f :=
  if lt x lo then lo else if lt hi x then hi else x

/-- The number to the nearest integer, a half away from zero; nothing below zero and nothing for
a NaN. -/
def roundToNat : Binary f → Nat
  | .finite false m e => let (p, q) := ratio m e; roundHalfUp p q
  | _ => 0

end Binary

/-- A thirty-two bit float. -/
abbrev Single := Binary .single

/-- A sixty-four bit float. -/
abbrev Double := Binary .double

end ChatStream.Decimal
