/-
# Calls

A call hands over one command line, or an ordered list of lines.
-/
import Errand.Text

namespace Errand.Run

/-- What a caller wants run. -/
inductive Call where
  /-- One command line. -/
  | one (command : Text)
  /-- Lines to run one after another. -/
  | many (commands : List Text)
  deriving DecidableEq, Repr

end Errand.Run
