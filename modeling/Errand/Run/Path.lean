/-
# Paths

Paths are joined and never normalized: `..` and `.` stay where they are.
-/
import Errand.Text

namespace Errand.Path

/-- Whether a path starts at the root. -/
def isAbsolute (path : Text) : Bool := path.head? == some '/'

/-- A path as seen from a directory. An absolute path stands alone. -/
def join (directory path : Text) : Text :=
  if isAbsolute path then path
  else match directory.getLast? with
    | none => path
    | some '/' => directory ++ path
    | some _ => directory ++ ['/'] ++ path

section Join

variable {directory path : Text}

theorem join_of_isAbsolute (absolute : isAbsolute path = true) : join directory path = path :=
  if_pos absolute

/-- A relative path stands behind the directory and a separator. -/
theorem join_of_open (relative : isAbsolute path = false) (nonempty : directory ≠ [])
    (isOpen : directory.getLast? ≠ some '/') : join directory path = directory ++ '/' :: path := by
  rw [join, if_neg (by simp [relative])]
  split
  · next missing => exact absurd (List.getLast?_eq_none_iff.mp missing) nonempty
  · next closed => exact absurd closed isOpen
  · simp

/-- A directory that ends with a separator, or is empty, gets no other one. -/
theorem join_of_closed (relative : isAbsolute path = false)
    (closed : directory = [] ∨ directory.getLast? = some '/') :
    join directory path = directory ++ path := by
  rw [join, if_neg (by simp [relative])]
  rcases closed with rfl | closed
  · rfl
  · simp [closed]

end Join

end Errand.Path
