import ChatStream.CommandLine.Run
import ChatStream.Path

/-!
# Paths into a few files

For runs over files that are given as data. A path is followed name by name, from the root or from
where the program stands, and what it meets decides what is found: a file on the way, a name that
nothing has, a name too long to be one. A directory is there if it is known to be, or if something
known lies in it.

Files are laid down one after another before a program runs. That makes no directories: a file is
laid where its directory is there already, and nowhere else.
-/

namespace ChatStream

/-- Some files and directories, each under the names on the way to it from the root. -/
structure FileSystem where
  /-- The directory in which the program stands. -/
  here : List String
  files : List (List String × Bytes)
  directories : List (List String) := []

/-- Where a path has led so far. -/
inductive Landing
  /-- In a directory. -/
  | inside (directory : List String)
  | file (b : Bytes)
  /-- Nowhere, and so it remains. -/
  | nowhere (why : FileContent)

namespace FileSystem

/-- The most bytes that a name may have. -/
def longestName : Nat := 255

/-- The most bytes that a path may have. -/
def longestPath : Nat := 4095

/-- Whether there is a directory. -/
def hasDirectory (fs : FileSystem) (directory : List String) : Bool :=
  (fs.here :: fs.directories ++ fs.files.map (·.1.dropLast)).any directory.isPrefixOf

/-- Follows one name. The directory above the root is the root. -/
def follow (fs : FileSystem) (l : Landing) (name : String) : Landing :=
  match l with
  | .nowhere why => .nowhere why
  | .file _ => .nowhere .throughFile
  | .inside directory =>
    if name = "." then .inside directory
    else if name = ".." then .inside directory.dropLast
    else if longestName < name.utf8ByteSize then .nowhere .nameTooLong
    else
      let full := directory ++ [name]
      match fs.files.find? (·.1 = full) with
      | some (_, b) => .file b
      | none => if fs.hasDirectory full then .inside full else .nowhere .missing

/-- Where the names of a path are followed from, and the names. -/
def way (fs : FileSystem) (path : String) : List String × List String :=
  (if path.startsWith "/" then [] else fs.here, (Path.parts path).filter (· ≠ ""))

/-- What is found at a path. A slash at its end asks for a directory. -/
def find (fs : FileSystem) (path : String) : FileContent :=
  let (start, names) := fs.way path
  let steps := names ++ if path.endsWith "/" then ["."] else []
  if path.isEmpty then .missing
  else if longestPath < path.utf8ByteSize then .nameTooLong
  else
    match steps.foldl fs.follow (.inside start) with
    | .inside _ => .directory
    | .file b => .bytes b
    | .nowhere why => why

/-- Lays a file at a path, in the place of one that was there. There must be a directory for it to
lie in, and no directory of its name. -/
def lay? (fs : FileSystem) (path : String) (b : Bytes) : Option FileSystem :=
  let (start, names) := fs.way path
  if path.endsWith "/" || path.contains '\x00' || longestPath < path.utf8ByteSize then none
  else
    match names.dropLast.foldl fs.follow (.inside start), names.getLast? with
    | .inside directory, some name =>
      let laid := { fs with files := (directory ++ [name], b) :: fs.files }
      match fs.follow (.inside directory) name with
      | .inside _ => none
      | .file _ => some laid
      | .nowhere why => if why = .missing then some laid else none
    | _, _ => none

/-- A program in a directory of its own with some files, and around it what is nowhere missing: an
empty input and the directories of a system. There is no such thing if a file cannot be laid. -/
def around? (here : List String) (files : List (String × Bytes)) : Option FileSystem :=
  files.foldlM (fun fs (path, b) ↦ fs.lay? path b) {
    here
    files := [(["dev", "null"], []), (["dev", "stdin"], [])]
    directories := ["bin", "etc", "home", "proc", "root", "tmp", "usr", "var"].map ([·]) }

end FileSystem

end ChatStream
