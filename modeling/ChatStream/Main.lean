import ChatStream.CommandLine.Run

/-!
# The program

Gathers what the command line needs from the world, runs it and writes what comes of it. The program
has no network, so it finds every server out of reach; answers come from captures.
-/

namespace ChatStream

/-- The variables that the program looks at. -/
def environmentNames : List String :=
  ["HEARTH_CONFIG", "HEARTH_LOG_LEVEL", "HEARTH_ENDPOINT", "HEARTH_MODEL", "HEARTH_TEMPERATURE",
   "HEARTH_SYSTEM_PROMPT", "HEARTH_FRAME_RATE", "HEARTH_CONTEXT_LIMIT", "HEARTH_PERSIST_PARTIAL",
   styleVariable, plainVariable]

/-- The environment of the program. -/
def readEnvironment : IO Environment :=
  environmentNames.filterMapM fun name ↦ do
    return (← IO.getEnv name).map (name, ·)

/-- The number of a system error, whichever sign it comes with. -/
def errorNumber (code : UInt32) : UInt32 := min code (0 - code)

/-- What is at a path. -/
def readFile (path : String) : IO FileContent := do
  try
    return .bytes (← IO.FS.readBinFile path).data.toList
  catch
    | .noFileOrDirectory .. => return .missing
    | .inappropriateType _ code _ =>
      return if errorNumber code = 20 then .throughFile else .directory
    | .invalidArgument _ code _ =>
      return if errorNumber code = 36 then .nameTooLong else .unreadable "Invalid argument"
    | .permissionDenied .. => return .forbidden
    | e => return .unreadable e.toString

/-- Reads the standard input to its end. -/
partial def readInput (done : ByteArray := .empty) : IO ByteArray := do
  let block ← (← IO.getStdin).read 65536
  if block.isEmpty then return done else readInput (done ++ block)

end ChatStream

open ChatStream in
/-- Runs the program on its arguments. -/
def main (args : List String) : IO UInt32 := do
  let env ← readEnvironment
  let line := CommandLine.parse env args
  let (files, input) ← match line with
    | .run i => do
      let files ← i.paths.mapM fun path ↦ do return (path, ← readFile path)
      let input ← if i.readsInput then readInput else pure .empty
      pure (files, input.data.toList)
    | _ => pure ([], [])
  let o := line.outcome {
    env
    file := fun path ↦ ((files.find? (·.1 = path)).map (·.2)).getD .missing
    input }
  IO.print o.out
  IO.eprint o.err
  return o.status.toUInt32
