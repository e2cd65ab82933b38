import ChatStream.Decimal.Numeral

/-!
# Failures of a stream

Opening or reading a stream fails for reasons of the transport; a session also fails when the
server reports an error in the stream. The texts are what the user is told.
-/

namespace ChatStream

/-- Why a stream could not be opened or read. -/
inductive TransportError
  /-- The request could not be sent. -/
  | connect (endpoint reason : String)
  /-- The server answered with a status that is no success. -/
  | status (code : Nat) (body : String)
  /-- Reading failed midway. -/
  | read (reason : String)
  /-- The transport was shut. -/
  | closed (reason : String)
  deriving DecidableEq, Repr

/-- What the user is told. -/
def TransportError.message : TransportError → String
  | .connect endpoint reason => "Failed to reach " ++ endpoint ++ ": " ++ reason
  | .status code body => "Server returned " ++ Decimal.natText code ++ ": " ++ body
  | .read reason => "Stream read failed: " ++ reason
  | .closed reason => "Transport closed: " ++ reason

/-- Why a session failed. -/
inductive Failure
  | transport (e : TransportError)
  /-- The server reported an error in the stream. -/
  | server (text : String)
  deriving DecidableEq, Repr

/-- What the user is told. -/
def Failure.message : Failure → String
  | .transport e => e.message
  | .server text => "Server error: " ++ text

end ChatStream
