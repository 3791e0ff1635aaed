/-
# Results of one call
-/
import Errand.Text

namespace Errand.Run

/-- What a call reports: normalized output, the exit code of the last command if
there was one, and whether the time ran out. -/
structure Result where
  stdout : Text
  stderr : Text
  exitCode : Option Int
  timedOut : Bool
  deriving DecidableEq, Repr

namespace Result

/-- A finished call with no exit code yet. -/
def finished (stdout stderr : Text) : Result := ⟨stdout, stderr, none, false⟩

/-- What was collected before the time ran out. -/
def interrupted (stdout stderr : Text) : Result := ⟨stdout, stderr, none, true⟩

/-- The result with an exit code. -/
def withExitCode (result : Result) (code : Int) : Result :=
  { result with exitCode := some code }

/-- The result with an exit code, where there is one. -/
def withExitCode? (result : Result) : Option Int → Result
  | none => result
  | some code => result.withExitCode code

/-- Whether the call reports exit code 0. -/
def success (result : Result) : Bool := result.exitCode == some 0

/-- Whether the time ran out or the exit code is not 0. -/
def failed (result : Result) : Bool :=
  result.timedOut || (result.exitCode.any (· != 0))

/-- The two outputs. -/
def outputs (result : Result) : Text × Text := (result.stdout, result.stderr)

/-- The lines of the standard output. -/
def lines (result : Result) : List Text := result.stdout.lines

end Result

end Errand.Run
