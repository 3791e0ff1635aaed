/-
# Plain word splitting

The splitter for lines that hold one command: words are separated by spaces, tabs
and newlines, quotes are removed, and no separator glyph or variable means
anything. A backslash before a newline joins the two lines, and a `#` that would
begin a word hides the rest of its line.
-/
import Errand.Shell.Token

namespace Errand.Shell.Words

/-- The characters between words. -/
def isGap (c : Char) : Bool := c = ' ' || c = '\t' || c = '\n'

/-- The word that has begun, as the only member of a list. -/
def close : Option Text → List Text
  | none => []
  | some word => [word]

/-- The word that has begun, or a new one, with `added` at its end. -/
def extend (word : Option Text) (added : Text) : Option Text :=
  some (word.getD [] ++ added)

/-- The text behind the first newline. -/
def skipLine : Text → Text
  | [] => []
  | c :: rest => if c = '\n' then rest else skipLine rest

private theorem skipLine_length_le (text : Text) : (skipLine text).length ≤ text.length := by
  induction text with
  | nil => simp [skipLine]
  | cons c rest ih => simp only [skipLine]; split <;> simp <;> omega

/-- Words of the rest of a line, or nothing if a quote or a backslash is left open.
`quoting` says which quotes are open and `word` holds the word that has begun. -/
def splitFrom : Quoting → Option Text → Text → Option (List Text)
  | .bare, word, [] => some (close word)
  | .single, _, [] => none
  | .double, _, [] => none
  | .single, word, c :: rest =>
    if c = '\'' then splitFrom .bare word rest
    else splitFrom .single (extend word [c]) rest
  | .double, word, c :: rest =>
    if c = '"' then splitFrom .bare word rest
    else if c = '\\' then
      match rest with
      | [] => none
      | next :: behind =>
        if next = '$' || next = '`' || next = '"' || next = '\\' then
          splitFrom .double (extend word [next]) behind
        else if next = '\n' then splitFrom .double word behind
        else splitFrom .double (extend word ['\\', next]) behind
    else splitFrom .double (extend word [c]) rest
  | .bare, word, c :: rest =>
    if isGap c then (splitFrom .bare none rest).map (close word ++ ·)
    else if c = '#' && word.isNone then splitFrom .bare none (skipLine rest)
    else if c = '\'' then splitFrom .single (extend word []) rest
    else if c = '"' then splitFrom .double (extend word []) rest
    else if c = '\\' then
      match rest with
      | [] => none
      | next :: behind =>
        splitFrom .bare (extend word (if next = '\n' then [] else [next])) behind
    else splitFrom .bare (extend word [c]) rest
termination_by _ _ line => line.length
decreasing_by
  all_goals simp only [List.length_cons]
  all_goals first
    | omega
    | (have shorter := skipLine_length_le rest; omega)

/-- The words of a line. -/
def split (line : Text) : Except ParseFault (List Text) :=
  match splitFrom .bare none line with
  | some words => .ok words
  | none => .error (.unsplittable line)

end Errand.Shell.Words
