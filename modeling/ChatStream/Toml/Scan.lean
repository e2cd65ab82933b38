import ChatStream.Decimal.Reading
import ChatStream.Toml.Value

/-!
# The words of TOML

Blanks, comments, line ends, keys, strings, numbers, dates and times: everything below the level of
values that contain values. Each reader takes what it reads from the front of the text and returns
the rest.
-/

namespace ChatStream.Toml

open Decimal

/-! ## Blanks, comments and line ends -/

/-- A blank within a line. -/
def isSpace (c : Char) : Bool := c = ' ' || c = '\t'

/-- Drops blanks. -/
def skipSpace (cs : List Char) : List Char := cs.dropWhile isSpace

/-- A character that may stand in a comment or a string on one line: no control but the tab. -/
def isPrintable (c : Char) : Bool := c = '\t' || (0x20 ≤ c.toNat && c.toNat ≠ 0x7F)

/-- Takes a line end. -/
def lineEnd? : List Char → Option (List Char)
  | '\n' :: rest => some rest
  | '\x0d' :: '\n' :: rest => some rest
  | _ => none

/-- Takes a comment, if there is one. -/
def skipComment : List Char → List Char
  | '#' :: rest => rest.dropWhile isPrintable
  | cs => cs

/-- Takes the rest of a line: blanks, perhaps a comment, and a line end or the end of the text. -/
def finishLine? (cs : List Char) : Option (List Char) :=
  match skipComment (skipSpace cs) with
  | [] => some []
  | cs => lineEnd? cs

/-- Drops blanks, comments and line ends. A comment runs to its line end; within it nothing but a
line end stops the search. -/
def skipLines (inComment : Bool) : List Char → List Char
  | [] => []
  | '\n' :: rest => skipLines false rest
  | '\x0d' :: '\n' :: rest => skipLines false rest
  | c :: rest =>
    if inComment then (if isPrintable c then skipLines true rest else c :: rest)
    else if c = '#' then skipLines true rest
    else if isSpace c then skipLines false rest
    else c :: rest

/-! ## Strings -/

/-- The character that a backslash and `c` stand for. -/
def simpleEscape? : Char → Option Char
  | '"' => some '"'
  | '\\' => some '\\'
  | 'b' => some '\x08'
  | 'f' => some '\x0c'
  | 'n' => some '\n'
  | 'r' => some '\x0d'
  | 't' => some '\t'
  | _ => none

/-- The value of a hexadecimal digit. -/
def hexDigit? (c : Char) : Option Nat :=
  if '0' ≤ c ∧ c ≤ '9' then some (c.toNat - '0'.toNat)
  else if 'a' ≤ c ∧ c ≤ 'f' then some (c.toNat - 'a'.toNat + 10)
  else if 'A' ≤ c ∧ c ≤ 'F' then some (c.toNat - 'A'.toNat + 10)
  else none

/-- The character with the code written in hexadecimal, if it is a Unicode scalar value. -/
def hexChar? (digits : List Char) : Option Char := do
  let n ← digits.foldlM (fun n d ↦ (hexDigit? d).map (n * 16 + ·)) 0
  if h : n.isValidChar then some (Char.ofNatAux n h) else none

/-- Takes the digits of a `\u` or `\U` escape: the character and the rest. -/
def codeEscape? (count : Nat) (cs : List Char) : Option (Char × List Char) :=
  let digits := cs.take count
  if digits.length = count then (hexChar? digits).map (·, cs.drop count) else none

/-- The inside of a string in double quotes on one line; the characters read come first, newest
first. -/
def basicString (done : List Char) : Nat → List Char → Option (String × List Char)
  | _, '"' :: rest => some (String.ofList done.reverse, rest)
  | fuel + 1, '\\' :: 'u' :: rest =>
    match codeEscape? 4 rest with
    | some (c, rest) => basicString (c :: done) fuel rest
    | none => none
  | fuel + 1, '\\' :: 'U' :: rest =>
    match codeEscape? 8 rest with
    | some (c, rest) => basicString (c :: done) fuel rest
    | none => none
  | fuel + 1, '\\' :: e :: rest =>
    match simpleEscape? e with
    | some c => basicString (c :: done) fuel rest
    | none => none
  | fuel + 1, c :: rest => if isPrintable c then basicString (c :: done) fuel rest else none
  | _, _ => none

/-- The inside of a string in single quotes on one line. -/
def literalString (done : List Char) : List Char → Option (String × List Char)
  | [] => none
  | '\'' :: rest => some (String.ofList done.reverse, rest)
  | c :: rest => if isPrintable c then literalString (c :: done) rest else none

/-- Drops the blanks and line ends after a backslash that ends a line; nothing when the line goes
on. -/
def foldedLines? (cs : List Char) : Option (List Char) :=
  (lineEnd? (skipSpace cs)).map (skipBlankLines ·)
where
  /-- Drops blanks and line ends. -/
  skipBlankLines : List Char → List Char
    | '\x0d' :: '\n' :: rest => skipBlankLines rest
    | c :: rest => if isSpace c || c = '\n' then skipBlankLines rest else c :: rest
    | [] => []

/-- The run of `quote` at the front of a multi-line string: two at most belong to the text, three
close it, and up to two more before those belong to the text again. Returns the quotes that belong
to the text and whether the string is closed. -/
def quoteRun (quote : Char) (cs : List Char) : Nat × Bool × List Char :=
  let n := min 5 (cs.takeWhile (· = quote)).length
  if n < 3 then (n, false, cs.drop n) else (n - 3, true, cs.drop n)

/-- The inside of a multi-line string. In double quotes a backslash escapes; in single quotes it
stands for itself. Every line end becomes a line feed. -/
def longString (quote : Char) (done : List Char) : Nat → List Char → Option (String × List Char)
  | 0, _ => none
  | _, [] => none
  | fuel + 1, c :: rest =>
    if c = quote then
      let (n, closed, rest) := quoteRun quote (c :: rest)
      let done := List.replicate n quote ++ done
      if closed then some (String.ofList done.reverse, rest)
      else longString quote done fuel rest
    else if c = '\\' ∧ quote = '"' then
      match rest with
      | 'u' :: tail =>
        match codeEscape? 4 tail with
        | some (c, rest) => longString quote (c :: done) fuel rest
        | none => none
      | 'U' :: tail =>
        match codeEscape? 8 tail with
        | some (c, rest) => longString quote (c :: done) fuel rest
        | none => none
      | _ =>
        match foldedLines? rest, rest with
        | some rest, _ => longString quote done fuel rest
        | none, e :: rest =>
          match simpleEscape? e with
          | some c => longString quote (c :: done) fuel rest
          | none => none
        | none, [] => none
    else
      match lineEnd? (c :: rest) with
      | some rest => longString quote ('\n' :: done) fuel rest
      | none => if isPrintable c then longString quote (c :: done) fuel rest else none

/-- Takes a string, with its quotes. A line end just after three opening quotes does not count. -/
def string? (cs : List Char) : Option (String × List Char) :=
  match cs with
  | '"' :: '"' :: '"' :: rest => longString '"' [] cs.length ((lineEnd? rest).getD rest)
  | '\'' :: '\'' :: '\'' :: rest => longString '\'' [] cs.length ((lineEnd? rest).getD rest)
  | '"' :: rest => basicString [] cs.length rest
  | '\'' :: rest => literalString [] rest
  | _ => none

/-! ## Keys -/

/-- A character of a bare key. -/
def isBareKey (c : Char) : Bool := c.isAlphanum || c = '_' || c = '-'

/-- Takes one part of a key. -/
def keyPart? (cs : List Char) : Option (String × List Char) :=
  match cs with
  | '"' :: rest => basicString [] cs.length rest
  | '\'' :: rest => literalString [] rest
  | _ =>
    match cs.span isBareKey with
    | ([], _) => none
    | (part, rest) => some (String.ofList part, rest)

/-- Nested arrays and tables, and the parts of a key, must stay below this number. -/
def nestingLimit : Nat := 80

/-- Takes the parts of a key, with the blanks around them. -/
def keyParts? (done : List String) : Nat → List Char → Option (List String × List Char)
  | 0, _ => none
  | fuel + 1, cs => do
    let (part, rest) ← keyPart? (skipSpace cs)
    match skipSpace rest with
    | '.' :: rest => keyParts? (part :: done) fuel rest
    | rest => return ((part :: done).reverse, rest)

/-- Takes a key: the path before its last part, and that part. -/
def key? (cs : List Char) : Option (List String × String × List Char) := do
  let (parts, rest) ← keyParts? [] (nestingLimit - 1) cs
  let name ← parts.getLast?
  return (parts.dropLast, name, rest)

/-! ## Numbers -/

/-- Takes digits that single underscores may separate; at least one, and none of the underscores at
an end. The digits come back without the underscores, newest first. -/
def digitRun (isDigit : Char → Bool) (done : List Char) : List Char → List Char × List Char
  | '_' :: d :: rest =>
    if !done.isEmpty && isDigit d then digitRun isDigit (d :: done) rest
    else (done, '_' :: d :: rest)
  | d :: rest => if isDigit d then digitRun isDigit (d :: done) rest else (done, d :: rest)
  | [] => (done, [])

/-- Takes a run of digits. -/
def digits? (isDigit : Char → Bool) (cs : List Char) : Option (List Char × List Char) :=
  match digitRun isDigit [] cs with
  | ([], _) => none
  | (ds, rest) => some (ds.reverse, rest)

/-- Takes the digits of a decimal integer: a leading zero stands alone. -/
def decimalDigits? (cs : List Char) : Option (List Char × List Char) :=
  match cs with
  | '0' :: rest => some (['0'], rest)
  | _ => digits? Char.isDigit cs

/-- Takes the exponent of a float, if one is there. -/
def floatExponent? : List Char → Option (Option Int × List Char)
  | c :: rest =>
    if c = 'e' ∨ c = 'E' then do
      let (negative, rest) := splitSign rest
      let (ds, rest) ← digits? Char.isDigit rest
      return (some (exponentOf negative ds), rest)
    else some (none, c :: rest)
  | [] => some (none, [])

/-- Takes a float: decimal digits with a fraction, an exponent or both, or a word. A float too
large is refused, though not one too small. -/
def float? (cs : List Char) : Option (Double × List Char) :=
  let (negative, body) := splitSign cs
  match body with
  | 'i' :: 'n' :: 'f' :: rest => some (.infinite negative, rest)
  | 'n' :: 'a' :: 'n' :: rest => some (.nan, rest)
  | _ => do
    let (whole, rest) ← decimalDigits? body
    let (fraction, rest) ← match rest with
      | '.' :: tail => (digits? Char.isDigit tail).map fun (ds, rest) ↦ (some ds, rest)
      | rest => some (none, rest)
    let (exponent, rest) ← floatExponent? rest
    if fraction.isNone && exponent.isNone then none
    else
      let x := Numeral.nearest { negative, whole, fraction, exponent }
      if x = .infinite false then none else return (x, rest)

/-- An integer of 64 bits. -/
def fitsWord (n : Int) : Bool := -0x8000000000000000 ≤ n && n < 0x8000000000000000

/-- Takes an integer: hexadecimal, octal and binary ones are unsigned. -/
def integer? (cs : List Char) : Option (Int × List Char) :=
  let based (base : Nat) (isDigit : Char → Bool) (cs : List Char) : Option (Int × List Char) := do
    let (ds, rest) ← digits? isDigit cs
    let n ← ds.foldlM (fun (n : Nat) d ↦
      ((hexDigit? d).map (n * base + ·)).filter fun n ↦ fitsWord n) 0
    return ((n : Int), rest)
  match cs with
  | '0' :: 'x' :: rest => based 16 (fun c ↦ (hexDigit? c).isSome) rest
  | '0' :: 'o' :: rest => based 8 (fun c ↦ '0' ≤ c && c ≤ '7') rest
  | '0' :: 'b' :: rest => based 2 (fun c ↦ c = '0' || c = '1') rest
  | _ => do
    let (negative, body) := splitSign cs
    let (ds, rest) ← decimalDigits? body
    let n : Int := if negative then -(ofDigits ds : Int) else ofDigits ds
    if fitsWord n then return (n, rest) else none

/-! ## Dates and times -/

/-- Takes exactly `count` digits that make a number in `[lo, hi]`. -/
def fixedDigits? (count lo hi : Nat) (cs : List Char) : Option (Nat × List Char) :=
  let ds := cs.take count
  let n := ofDigits ds
  if ds.length = count ∧ ds.all Char.isDigit ∧ lo ≤ n ∧ n ≤ hi then some (n, cs.drop count)
  else none

/-- Takes the character `c`. -/
def char? (c : Char) : List Char → Option (List Char)
  | d :: rest => if d = c then some rest else none
  | [] => none

/-- The days of a month. -/
def daysIn (year month : Nat) : Nat :=
  if month = 2 then
    if year % 4 = 0 ∧ (year % 100 ≠ 0 ∨ year % 400 = 0) then 29 else 28
  else if [4, 6, 9, 11].contains month then 30
  else 31

/-- Takes a date. -/
def date? (cs : List Char) : Option (List Char) := do
  let (year, cs) ← fixedDigits? 4 0 9999 cs
  let cs ← char? '-' cs
  let (month, cs) ← fixedDigits? 2 1 12 cs
  let cs ← char? '-' cs
  let (_, cs) ← fixedDigits? 2 1 (daysIn year month) cs
  return cs

/-- Takes a time of day, perhaps with a fraction of a second. -/
def time? (cs : List Char) : Option (List Char) := do
  let (_, cs) ← fixedDigits? 2 0 23 cs
  let cs ← char? ':' cs
  let (_, cs) ← fixedDigits? 2 0 59 cs
  let cs ← char? ':' cs
  let (_, cs) ← fixedDigits? 2 0 60 cs
  match cs with
  | '.' :: rest =>
    match spanDigits rest with
    | ([], _) => return cs
    | (_, rest) => return rest
  | _ => return cs

/-- Takes an offset from universal time. -/
def offset? : List Char → Option (List Char)
  | 'Z' :: rest => some rest
  | 'z' :: rest => some rest
  | c :: rest =>
    if c = '+' ∨ c = '-' then do
      let (_, cs) ← fixedDigits? 2 0 23 rest
      let cs ← char? ':' cs
      let (_, cs) ← fixedDigits? 2 0 59 cs
      return cs
    else none
  | [] => none

/-- Takes a date, a time, or both. -/
def moment? (cs : List Char) : Option (List Char) :=
  match date? cs with
  | some rest =>
    match rest with
    | c :: tail =>
      if c = 'T' ∨ c = 't' ∨ c = ' ' then
        match time? tail with
        | some rest => some ((offset? rest).getD rest)
        | none => some (c :: tail)
      else some (c :: tail)
    | [] => some []
  | none => time? cs

end ChatStream.Toml
