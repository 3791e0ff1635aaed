/-
# Options of one call
-/
import Errand.Duration
import Errand.Environment

namespace Errand.Run

/-- The stream that a remote call waits for before it collects the rest. -/
inductive BlockOn where
  | input
  | output
  | error
  deriving DecidableEq, Repr

/-- What a caller may ask of one call. -/
structure Options where
  /-- Bound on the final wait. Without it the wait has no end of its own. -/
  timeout : Option Duration
  /-- Payload for the standard input of the first stage. -/
  input : Option (List UInt8)
  blockOn : BlockOn
  /-- Directory that local processes begin in. -/
  workingDir : Option Text
  /-- Variables laid over those of the running process. -/
  env : Environment
  deriving DecidableEq, Repr

namespace Options

/-- No timeout, no payload, wait for the output. -/
def empty : Options := ⟨none, none, .output, none, []⟩

instance : Inhabited Options := ⟨empty⟩

/-- The options with a bound on the final wait. -/
def withTimeout (options : Options) (limit : Duration) : Options :=
  { options with timeout := some limit }

/-- The options with a bound in seconds, where zero stands for none. -/
def withTimeoutSecs (options : Options) (secs : Nat) : Options :=
  { options with timeout := if secs = 0 then none else some (.ofSecs secs) }

/-- The options with a payload. -/
def withInput (options : Options) (input : List UInt8) : Options :=
  { options with input := some input }

/-- The options with a stream to wait for. -/
def withBlockOn (options : Options) (stream : BlockOn) : Options :=
  { options with blockOn := stream }

/-- The options with a directory to begin in. -/
def withWorkingDir (options : Options) (directory : Text) : Options :=
  { options with workingDir := some directory }

/-- The options with one more variable. -/
def withVariable (options : Options) (name value : Text) : Options :=
  { options with env := options.env.set name value }

/-- The options with more variables, set first to last. -/
def withVariables (options : Options) (vars : List (Text × Text)) : Options :=
  { options with env := options.env.setAll vars }

end Options

end Errand.Run
