/-
# Errors

An error is the cause of a failed call. Its wording is one function of the cause.
-/
import Errand.Config.Fault
import Errand.Output.Raw
import Errand.Remote.ConnectionFault
import Errand.Shell.ParseFault

namespace Errand

/-- Why a call fails. -/
inductive Error where
  | parse (fault : Shell.ParseFault)
  | type (fault : Output.TypeFault)
  | config (fault : Config.Fault)
  | connection (fault : Remote.ConnectionFault)
  | io (fault : OsFault)
  /-- A process could not be started. -/
  | spawn (program : Text) (fault : OsFault)
  /-- Another thread failed while it held the backend. -/
  | lockPoisoned
  deriving DecidableEq, Repr

namespace Error

/-- Whether the connection to a remote host is at fault rather than the caller. -/
def isConnection : Error → Bool
  | .connection _ => true
  | _ => false

/-- The wording of an error. -/
def message : Error → String
  | .parse fault => "parse error: " ++ fault.message
  | .type fault => "type error: " ++ fault.message
  | .config fault => "configuration error: " ++ fault.message
  | .connection fault => "connection error: " ++ fault.message
  | .io fault => "I/O error: " ++ fault.message
  | .spawn program fault =>
    "command execution failed: failed to spawn `" ++ program.toString ++ "`: " ++ fault.message
  | .lockPoisoned => "internal lock poisoned"

end Error

end Errand
