/-!
# Log lines

What the program tells its operator. A line is data like everything else: operations that log
return their lines, and whoever runs them decides where the lines go.
-/

namespace ChatStream

/-- How much a log line matters, from least to most. -/
inductive LogLevel
  | trace
  | debug
  | info
  | warn
  deriving DecidableEq, Repr

/-- One log line: a fixed message and the values that belong to it, by name. -/
structure LogLine where
  level : LogLevel
  message : String
  fields : List (String × String) := []
  deriving DecidableEq, Repr

/-- A truth value as a log field. -/
def boolField (b : Bool) : String := if b then "true" else "false"

end ChatStream
