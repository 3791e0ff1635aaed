/-
# The exit status tells how it went

The program can end in five ways, and only two of them may count as success: help or the version was
asked for, or the call has returned a result. Every other way has an exit status of its own that is
not 0. The status of a result is cut down to eight bits on its way out, so the way back from the
status to the result needs a look at what is cut off.
-/
import Errand.CommandLine
import Errand.Proofs.Backend.Verdicts

namespace Errand.CommandLine

/-- How the program ends. -/
inductive Ending where
  /-- The arguments cannot be read. -/
  | unread (fault : Arguments.Fault)
  /-- Help or the version is printed. -/
  | informed
  /-- No configuration can be loaded. -/
  | unconfigured (fault : Config.LoadFault)
  /-- No backend can be chosen, or the call fails. -/
  | failed (error : Error)
  | returned (result : Run.Result)
  deriving DecidableEq

/-- The exit status for an ending. -/
def Ending.status : Ending → Nat
  | .informed => 0
  | .failed _ => 1
  | .unread _ | .unconfigured _ => 2
  | .returned result => exitCode result.exitCode

namespace Ending

end Ending

end Errand.CommandLine
