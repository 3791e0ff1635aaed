/-
# Faults of a connection
-/
import Errand.Text

namespace Errand.Remote

/-- The text of a failure of the connection. -/
abbrev Fault := Text

/-- Why a call fails although its request was sound. -/
inductive ConnectionFault where
  | cannotConnect (remote : Text) (fault : Fault)
  | retriesExhausted (remote : Text) (retries : Nat) (fault : Fault)
  deriving DecidableEq, Repr

/-- The wording of a connection fault. -/
def ConnectionFault.message : ConnectionFault → String
  | .cannotConnect remote fault =>
    "cannot connect to " ++ remote.toString ++ ": " ++ Text.toString fault
  | .retriesExhausted remote retries fault =>
    remote.toString ++ " failed after " ++ toString retries ++ " retries: " ++
      Text.toString fault

end Errand.Remote
