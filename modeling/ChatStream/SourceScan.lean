import ChatStream.Decimal.Numeral
import ChatStream.Path
import ChatStream.Text.Blank

/-!
# Scanning Rust sources

The rules on sleeping and on blocking input and output are checked line by line, and whether a line
may block depends on the function around it. The scanner goes by how lines look: a line that looks
like the head of a function declares one, and a line belongs to the nearest head at or above it.
Tests come last in a file and are not looked at.
-/

namespace ChatStream.SourceScan

open Text

/-- Whether `cs` contains `run`. -/
def contains (run : List Char) : List Char → Bool
  | [] => run.isEmpty
  | c :: rest => run.isPrefixOf (c :: rest) || contains run rest

/-- The lines of a text: each ends at a line feed, and a carriage return before that does not
count. What follows the last line feed is a line unless it is empty. -/
def linesOf (content : String) : List String :=
  match (splitAt '\n' content.toList).reverse with
  | [] => []
  | last :: ended =>
    let whole := ended.reverse.map fun line ↦
      if line.getLast? = some '\x0d' then line.dropLast else line
    (whole ++ if last.isEmpty then [] else [last]).map String.ofList

/-- A source file without its tests. -/
structure SourceFile where
  path : String
  /-- The lines before the tests. -/
  lines : List String
  deriving DecidableEq, Repr

/-- Whether a line begins the tests of a file. -/
def beginsTests (line : String) : Bool := (after? "#[cfg(test)]" (trimStart line)).isSome

/-- The file at `path` with the given content. -/
def SourceFile.ofSource (path content : String) : SourceFile where
  path := path
  lines := (linesOf content).takeWhile fun line ↦ !beginsTests line

/-- Whether the last components of a path are those of `ending`. -/
def SourceFile.endsWith (f : SourceFile) (ending : String) : Bool :=
  (Path.components ending).isSuffixOf (Path.components f.path)

/-! ## Functions -/

/-- The kinds of functions. -/
inductive FunctionKind
  | async
  | sync
  deriving DecidableEq, Repr

/-- The part of a line before a comment that follows a space. -/
def beforeComment : List Char → List Char
  | [] => []
  | c :: rest => if [' ', '/', '/'].isPrefixOf (c :: rest) then [] else c :: beforeComment rest

/-- The code on a line. -/
def codeChars (line : List Char) : List Char :=
  if ['/', '/'].isPrefixOf (line.dropWhile isBlank) then [] else beforeComment line

/-- The code on a line. -/
def codeOf (line : String) : String := String.ofList (codeChars line.toList)

/-- The kind of the function that a line declares, by its looks. -/
def declares? (line : String) : Option FunctionKind :=
  let code := codeChars line.toList
  let body := code.dropWhile isBlank
  let starts (word : String) : Bool := word.toList.isPrefixOf body
  let has (run : String) : Bool := contains run.toList code
  if starts "fn " || starts "async fn " ||
      ((starts "pub" || starts "const " || starts "unsafe ") && has " fn ") then
    some (if has "async fn " then .async else .sync)
  else none

/-- The kind of the function around line `index`: that of the nearest declaration at or above it.
An index past the end counts as the last line. Without any lines there is no answer at all. -/
def enclosing? (lines : List String) (index : Nat) : Option (Option FunctionKind) :=
  if lines.isEmpty then none
  else some ((lines.take (index + 1)).reverse.findSome? declares?)

/-- A finding on line `index`, for a report. -/
def SourceFile.describe (f : SourceFile) (index : Nat) (what : String) : String :=
  f.path ++ ":" ++ Decimal.natText (index + 1) ++ " - " ++ what ++ ": " ++
    trim (f.lines[index]?.getD "")

end ChatStream.SourceScan
