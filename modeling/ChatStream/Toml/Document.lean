import ChatStream.Toml.Scan

/-!
# TOML documents

A document is a list of lines: assignments, headers and blanks. Reading goes line by line and keeps
the table that the last header opened; a document that breaks a rule of TOML is refused as a
whole.
-/

namespace ChatStream.Toml

open Decimal

/-- Takes values separated by commas up to the closing bracket; a last comma is allowed, and so are
comments and line ends anywhere between. -/
def arrayItems (element : List Char → Option (Value × List Char)) (done : List Value) :
    Nat → List Char → Option (List Value × List Char)
  | 0, _ => none
  | fuel + 1, cs =>
    match skipLines false cs with
    | ']' :: rest => some (done.reverse, rest)
    | cs => do
      let (v, rest) ← element cs
      match skipLines false rest with
      | ',' :: rest => arrayItems element (v :: done) fuel rest
      | ']' :: rest => return ((v :: done).reverse, rest)
      | _ => none

/-- Takes assignments separated by commas up to the closing brace, all on one line but for what
their values contain. -/
def tableItems (element : List Char → Option (Value × List Char)) (ms : Members) :
    Nat → List Char → Option (Members × List Char)
  | 0, _ => none
  | fuel + 1, cs => do
    let (path, name, rest) ← key? cs
    let rest ← char? '=' rest
    let (v, rest) ← element (skipSpace rest)
    let (_, ms) ← assign path name v .defined ms
    match skipSpace rest with
    | ',' :: rest => tableItems element ms fuel rest
    | '}' :: rest => return (ms, rest)
    | _ => none

/-- Takes a value that contains others at most `room` deep. -/
def value? : Nat → List Char → Option (Value × List Char)
  | room, cs =>
    match cs with
    | '"' :: _ => (string? cs).map fun (s, rest) ↦ (.text s, rest)
    | '\'' :: _ => (string? cs).map fun (s, rest) ↦ (.text s, rest)
    | 't' :: 'r' :: 'u' :: 'e' :: rest => some (.truth true, rest)
    | 'f' :: 'a' :: 'l' :: 's' :: 'e' :: rest => some (.truth false, rest)
    | '[' :: rest =>
      match room with
      | 0 => none
      | room + 1 =>
        (arrayItems (value? room) [] cs.length rest).map fun (vs, rest) ↦ (.array vs, rest)
    | '\x7b' :: rest =>
      match room with
      | 0 => none
      | room + 1 =>
        match skipSpace rest with
        | '\x7d' :: rest => some (.table [], rest)
        | _ =>
          (tableItems (value? room) [] cs.length rest).map fun (ms, rest) ↦
            (.table (memberValues ms), rest)
    | _ =>
      match moment? cs with
      | some rest => some (.moment, rest)
      | none =>
        match float? cs with
        | some (x, rest) => some (.float x, rest)
        | none => (integer? cs).map fun (n, rest) ↦ (.integer n, rest)

/-- A document as far as it has been read. -/
structure Reading where
  /-- The entries of the document. -/
  members : Members := []
  /-- The path of the table that the last header opened. -/
  header : List String := []

/-- Takes one line: an assignment, a header, a comment or nothing. -/
def line? (r : Reading) (cs : List Char) : Option (Reading × List Char) :=
  match skipSpace cs with
  | [] => some (r, [])
  | '#' :: rest => (finishLine? ('#' :: rest)).map (r, ·)
  | '\n' :: rest => some (r, rest)
  | '\x0d' :: '\n' :: rest => some (r, rest)
  | '[' :: '[' :: rest => do
    let (path, name, rest) ← key? rest
    let rest ← char? ']' rest
    let rest ← char? ']' rest
    let rest ← finishLine? rest
    let (_, members) ← appendTable path name .defined r.members
    return ({ members, header := path ++ [name] }, rest)
  | '[' :: rest => do
    let (path, name, rest) ← key? rest
    let rest ← char? ']' rest
    let rest ← finishLine? rest
    let (_, members) ← defineTable path name .defined r.members
    return ({ members, header := path ++ [name] }, rest)
  | cs => do
    let (path, name, rest) ← key? cs
    let rest ← char? '=' rest
    let (v, rest) ← value? (nestingLimit - 1) (skipSpace rest)
    let rest ← finishLine? rest
    let (_, members) ← descend false (assign path name v) r.header .defined r.members
    return ({ r with members }, rest)

/-- Takes lines to the end of the text. Every line takes at least one character. -/
def lines? (r : Reading) : Nat → List Char → Option Reading
  | _, [] => some r
  | 0, _ => none
  | fuel + 1, cs =>
    match line? r cs with
    | some (r, rest) => lines? r fuel rest
    | none => none

/-- The members of a document. A byte order mark at its front does not count. -/
def parse? (s : String) : Option (List (String × Value)) :=
  let cs := match s.toList with
    | '\uFEFF' :: rest => rest
    | cs => cs
  (lines? {} cs.length cs).map fun r ↦ memberValues r.members

end ChatStream.Toml
