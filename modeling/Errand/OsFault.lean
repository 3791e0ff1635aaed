/-
# Faults of the operating system
-/
import Errand.Text

namespace Errand

/-- Why the operating system does not do what it is asked. -/
inductive OsFault where
  | notFound
  | argumentsTooLong
  | permissionDenied
  | notDirectory
  | isDirectory
  | nameTooLong
  | tooManyLinks
  | networkUnreachable
  /-- A text holds a NUL, which no argument, variable or path can. -/
  | nulByte
  /-- A file holds bytes that are not UTF-8. -/
  | notUtf8
  deriving DecidableEq, Repr

/-- The wording of a fault, with its number where it has one. -/
def OsFault.message : OsFault → String
  | .notFound => "No such file or directory (os error 2)"
  | .argumentsTooLong => "Argument list too long (os error 7)"
  | .permissionDenied => "Permission denied (os error 13)"
  | .notDirectory => "Not a directory (os error 20)"
  | .isDirectory => "Is a directory (os error 21)"
  | .nameTooLong => "File name too long (os error 36)"
  | .tooManyLinks => "Too many levels of symbolic links (os error 40)"
  | .networkUnreachable => "Network is unreachable (os error 101)"
  | .nulByte => "nul byte found in provided data"
  | .notUtf8 => "stream did not contain valid UTF-8"

end Errand
