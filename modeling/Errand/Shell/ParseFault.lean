/-
# Why a command line cannot be read
-/
import Errand.Text

namespace Errand.Shell

/-- What is wrong with a command line. Each cause carries the line it was found in. -/
inductive ParseFault where
  /-- A single or double quote that is never closed. -/
  | openQuote (quote : Char) (line : Text)
  /-- A line that word splitting cannot read: an open quote or a final backslash. -/
  | unsplittable (line : Text)
  /-- A line without a single word to run. -/
  | noCommand (line : Text)
  deriving DecidableEq, Repr

/-- The wording of a parse fault. -/
def ParseFault.message : ParseFault → String
  | .openQuote quote line =>
    "no closing quotation (" ++ quote.toString ++ ") in `" ++ line.toString ++ "`"
  | .unsplittable line => "cannot split `" ++ line.toString ++ "`"
  | .noCommand line => "no command in `" ++ line.toString ++ "`"

end Errand.Shell
