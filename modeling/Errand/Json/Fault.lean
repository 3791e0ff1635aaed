/-
# Why a JSON text cannot be read
-/

namespace Errand.Json

/-- How a JSON text is wrong. A text is read from left to right and the first thing
that is wrong counts. -/
inductive Fault where
  /-- It is not JSON. -/
  | malformed
  /-- It is JSON but not what is asked for. -/
  | unsuitable
  /-- It ends too early. -/
  | cutShort
  deriving DecidableEq, Repr

/-- The wording of a fault. -/
def Fault.message : Fault → String
  | .malformed => "not JSON"
  | .unsuitable => "not a configuration"
  | .cutShort => "unexpected end of text"

end Errand.Json
