import ChatStream.Text.Split

/-!
# Paths

A path is cut into names at its slashes. Repeated slashes and dots on the way do not count; a slash
in front stands for the root, and a dot in front is kept as a name.
-/

namespace ChatStream.Path

open Text

/-- What stands between the slashes of a path. -/
def parts (path : String) : List String := (splitAt '/' path.toList).map String.ofList

/-- The components of a path: the root, a leading dot, and every name. -/
def components (path : String) : List String :=
  let names := (parts path).filter fun part ↦ part ≠ "" ∧ part ≠ "."
  match parts path with
  | "." :: _ => "." :: names
  | "" :: _ :: _ => "/" :: names
  | _ => names

/-- A name in a directory. -/
def join (directory name : String) : String :=
  if directory.endsWith "/" then directory ++ name else directory ++ "/" ++ name

end ChatStream.Path
