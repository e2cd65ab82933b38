import ChatStream.Decimal.Shortest
import ChatStream.Decimal.Reading
import ChatStream.Json.Tree

/-!
# JSON values

A value is what a tree denotes. Integers that fit 64 bits are exact, all other numbers are doubles;
the members of an object are sorted by name and the last of a repeated name counts. A tree denotes
no value when it is nested too deeply, when a number is too large for a double, or when one of its
strings denotes no text.
-/

namespace ChatStream.Json

open Decimal

/-- A number. -/
inductive Number
  | int (n : Int)
  | float (x : Double)
  deriving DecidableEq, Repr

/-- A JSON value. -/
inductive Value
  | null
  | truth (value : Bool)
  | number (n : Number)
  | text (s : String)
  | array (items : List Value)
  /-- The members, by name in ascending order. -/
  | object (members : List (String × Value))
  deriving Repr

instance : Inhabited Value := ⟨.null⟩

/-! ## Numbers -/

/-- The digits of a numeral that fit a 64-bit word, and the power of ten that stands for the
rest. -/
structure Significand where
  /-- The digits kept. -/
  kept : Nat := 0
  /-- The exponent of ten. -/
  exponent : Int := 0
  /-- Whether a digit has been left out. -/
  full : Bool := false

/-- One past the largest 64-bit word. -/
def wordBound : Nat := 0x10000000000000000

/-- Takes a digit before the point: once one does not fit, each further one counts ten. -/
def Significand.takeWhole (s : Significand) (d : Char) : Significand :=
  let next := s.kept * 10 + digitValue d
  if s.full || wordBound ≤ next then { s with exponent := s.exponent + 1, full := true }
  else { s with kept := next }

/-- Takes a digit after the point: once one does not fit, it and all further ones are dropped. -/
def Significand.takeFraction (s : Significand) (d : Char) : Significand :=
  let next := s.kept * 10 + digitValue d
  if s.full || wordBound ≤ next then { s with full := true }
  else { s with kept := next, exponent := s.exponent - 1 }

/-- The significand of a numeral, its written exponent included. -/
def Significand.of (n : Numeral) : Significand :=
  let s := n.whole.foldl takeWhole {}
  let s := (n.fraction.getD []).foldl takeFraction { s with full := false }
  { s with exponent := s.exponent + n.exponent.getD 0 }

/-- The double nearest to `10 ^ k`, which is a natural number. -/
def tenPower (k : Nat) : Nat := (Binary.ofDecimal false 1 k : Double).roundToNat

/-- Scales a double by a power of ten in steps that doubles can express: one power up to
`10 ^ 308`, itself rounded, each step rounded again. Nothing when the result is too large. Further
down every step takes `10 ^ 308` off, and a number has come to zero after three. -/
def scaleDouble? (x : Double) (e : Int) : Nat → Option Double
  | 0 => some x
  | steps + 1 =>
    if 308 < e then (if x.isZero then some x else none)
    else if 0 ≤ e then
      let y := x.scaleUp (tenPower e.toNat)
      if y.isFinite then some y else none
    else if -308 ≤ e then some (x.scaleDown (tenPower (-e).toNat))
    else if x.isZero then some x
    else scaleDouble? (x.scaleDown (tenPower 308)) (e + 308) steps

/-- The double that a numeral denotes; nothing when it is too large. -/
def readDouble? (n : Numeral) : Option Double :=
  let s := Significand.of n
  (scaleDouble? (.ofInt s.kept) s.exponent 5).map fun x ↦ if n.negative then x.neg else x

/-- The number that a numeral denotes. An integer of at most 64 bits is exact, but minus zero is
a double, and so is everything else. -/
def Number.ofNumeral? (n : Numeral) : Option Number :=
  let k := ofDigits n.whole
  if n.isInteger then
    if !n.negative then
      if k < wordBound then some (.int k) else (readDouble? n).map .float
    else if 0 < k ∧ k ≤ 0x8000000000000000 then some (.int (-(k : Int)))
    else (readDouble? n).map .float
  else (readDouble? n).map .float

/-- How doubles are written: plainly from `0.00001` to below `10 ^ 16`, always with a point. -/
def doubleLayout : Layout := ⟨some (-5, 15), true, .toEven⟩

/-- How thirty-two bit floats are written: plainly from `0.000001` to below `10 ^ 13`, always with
a point. -/
def singleLayout : Layout := ⟨some (-6, 12), true, .toEven⟩

/-- The tree of a float; infinities and NaN have no numeral. -/
def floatTree {f : Format} (l : Layout) (x : Binary f) : Tree :=
  match l.numeral? x with
  | some n => .numeral n
  | none => .null

/-- The tree of a number. -/
def Number.tree : Number → Tree
  | .int n => .numeral (.ofInt n)
  | .float x => floatTree doubleLayout x

/-! ## Values and trees -/

/-- Puts a member into a list sorted by name, in place of one of the same name. -/
def insertMember (name : String) (v : Value) :
    List (String × Value) → List (String × Value)
  | [] => [(name, v)]
  | (k, w) :: rest =>
    if name = k then (name, v) :: rest
    else if name < k then (name, v) :: (k, w) :: rest
    else (k, w) :: insertMember name v rest

/-- Reads a member with the given reader for its value; its name must denote text. -/
def readMember {α : Type} (read : Tree → Option α) (m : Option String × Tree) :
    Option (String × α) := do
  return (← m.1, ← read m.2)

/-- The value that a tree denotes, when arrays and objects are nested at most `room` deep. -/
def Tree.value? : Nat → Tree → Option Value
  | _, .null => some .null
  | _, .truth b => some (.truth b)
  | _, .numeral n => (Number.ofNumeral? n).map .number
  | _, .text s => s.map .text
  | 0, .array _ => none
  | room + 1, .array items => (items.mapM (Tree.value? room)).map .array
  | 0, .object _ => none
  | room + 1, .object members =>
    (members.mapM (readMember (Tree.value? room))).map fun ms ↦
      .object (ms.foldl (fun sorted m ↦ insertMember m.1 m.2 sorted) [])

mutual

/-- The tree that denotes a value. -/
def Value.tree : Value → Tree
  | .null => .null
  | .truth b => .truth b
  | .number n => n.tree
  | .text s => .text (some s)
  | .array items => .array (itemTrees items)
  | .object members => .object (memberTrees members)

/-- The trees of the items of an array. -/
def itemTrees : List Value → List Tree
  | [] => []
  | v :: vs => v.tree :: itemTrees vs

/-- The trees of the members of an object. -/
def memberTrees : List (String × Value) → List (Option String × Tree)
  | [] => []
  | (k, v) :: ms => (some k, v.tree) :: memberTrees ms

end

/-- The compact text of a value. -/
def Value.render (v : Value) : String := v.tree.render

/-- Levels of arrays and objects that a text may have in all. -/
def depthLimit : Nat := 127

/-! ## Leaves -/

/-- The text that a tree denotes. -/
def Tree.string? : Tree → Option String
  | .text s => s
  | _ => none

/-- The truth value that a tree denotes. -/
def Tree.truth? : Tree → Option Bool
  | .truth b => some b
  | _ => none

/-- The number that a tree denotes. -/
def Tree.number? : Tree → Option Number
  | .numeral n => Number.ofNumeral? n
  | _ => none

/-- The integer in `[lo, hi]` that a tree denotes. -/
def Tree.int? (lo hi : Int) (t : Tree) : Option Int :=
  match t.number? with
  | some (.int n) => if lo ≤ n ∧ n ≤ hi then some n else none
  | _ => none

/-- Reads a field that may be absent or null. -/
def optional? {α : Type} (read : Tree → Option α) : Option Tree → Option (Option α)
  | none => some none
  | some .null => some none
  | some t => (read t).map some

end ChatStream.Json
