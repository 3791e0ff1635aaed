/-
# Words and the variable references in them

A word without its quoting is a sequence of parts: literal characters, and
references that were written `$NAME` or `${NAME}` outside single quotes and not
behind a backslash. The text of a word and the place of each reference in that
text are both read off the parts, so the two cannot disagree.
-/
import Errand.Shell.Token
import Errand.Text.Utf8

namespace Errand.Shell

/-- One part of a word. -/
inductive Part where
  | literal (c : Char)
  | reference (name : Text) (braced : Bool)
  deriving DecidableEq, Repr

/-- A part as it reads while nothing has been substituted for it. -/
def Part.text : Part → Text
  | .literal c => [c]
  | .reference name false => '$' :: name
  | .reference name true => '$' :: '{' :: name ++ ['}']

/-- The name that a part refers to. -/
def Part.name? : Part → Option Text
  | .literal _ => none
  | .reference name _ => some name

/-- A word without its quoting. -/
abbrev Word := List Part

/-- A reference in a word: its name and where it begins and ends in the text of the
word, counted in bytes of UTF-8. -/
structure Reference where
  name : Text
  start : Nat
  stop : Nat
  deriving DecidableEq, Repr

namespace Word

/-- A word that is the text itself and refers to nothing. -/
def ofText (text : Text) : Word := text.map .literal

/-- The text of a word, references written out. -/
def text (word : Word) : Text := word.flatMap Part.text

/-- The references of a word that begins `start` bytes into a longer text. -/
def referencesFrom (start : Nat) : Word → List Reference
  | [] => []
  | part :: parts =>
    let stop := start + Utf8.size part.text
    match part with
    | .literal _ => referencesFrom stop parts
    | .reference name _ => ⟨name, start, stop⟩ :: referencesFrom stop parts

/-- The references of a word in order of appearance. -/
def references (word : Word) : List Reference := referencesFrom 0 word

end Word

/-- A character that a name may begin with. -/
def isNameStart (c : Char) : Bool := c = '_' || c.isAlpha

/-- A character that a name may go on with. -/
def isNameChar (c : Char) : Bool := isNameStart c || c.isDigit

/-- The longest name at the start of a text, with what follows it. -/
def name? : Text → Option (Text × Text)
  | [] => none
  | c :: rest =>
    if isNameStart c then some (c :: rest.takeWhile isNameChar, rest.dropWhile isNameChar)
    else none

/-- The reference that the characters after a dollar sign complete, with what
follows it. -/
def reference? : Text → Option (Part × Text)
  | '{' :: rest => match name? rest with
    | some (name, '}' :: after) => some (.reference name true, after)
    | _ => none
  | rest => (name? rest).map fun (name, after) => (.reference name false, after)

private theorem dropWhile_length_le (p : Char → Bool) (text : Text) :
    (text.dropWhile p).length ≤ text.length := by
  induction text with
  | nil => simp
  | cons c rest ih => rw [List.dropWhile_cons]; split <;> simp <;> omega

private theorem name?_shorter {text name after : Text} (h : name? text = some (name, after)) :
    after.length < text.length := by
  cases text with
  | nil => simp [name?] at h
  | cons c rest =>
    simp only [name?] at h
    split at h
    · have := dropWhile_length_le isNameChar rest
      simp only [Option.some.injEq, Prod.mk.injEq] at h
      rw [← h.2]; simp only [List.length_cons]; omega
    · simp at h

/-- A reference takes at least one character. -/
theorem reference?_shorter {text after : Text} {part : Part}
    (h : reference? text = some (part, after)) : after.length < text.length := by
  unfold reference? at h
  split at h
  · split at h
    · next found =>
      have := name?_shorter found
      simp only [Option.some.injEq, Prod.mk.injEq] at h
      rw [← h.2]; simp only [List.length_cons] at this ⊢; omega
    · simp at h
  · simp only [Option.map_eq_some_iff, Prod.exists] at h
    obtain ⟨name, rest, found, same⟩ := h
    have := name?_shorter found
    simp only [Prod.mk.injEq] at same
    rw [← same.2]; exact this

/-- The characters that a backslash takes with it inside double quotes. -/
def isEscapable (c : Char) : Bool := c = '$' || c = '`' || c = '"' || c = '\\' || c = '\n'

namespace Word

/-- The parts of the rest of a raw word. `quoting` says which quotes are open.
Fails with the quote that is still open at the end. -/
def unquoteFrom : Quoting → Text → Except Char Word
  | .bare, [] => .ok []
  | .single, [] => .error '\''
  | .double, [] => .error '"'
  | .single, c :: rest =>
    if c = '\'' then unquoteFrom .bare rest
    else (unquoteFrom .single rest).map (.literal c :: ·)
  | quoting, c :: rest =>
    if c = '\\' then
      match rest with
      | [] => (unquoteFrom quoting []).map (.literal c :: ·)
      | next :: behind =>
        if quoting = .bare || isEscapable next then
          (unquoteFrom quoting behind).map (.literal next :: ·)
        else (unquoteFrom quoting (next :: behind)).map (.literal c :: ·)
    else if c = '$' then
      match _found : reference? rest with
      | some (part, after) => (unquoteFrom quoting after).map (part :: ·)
      | none => (unquoteFrom quoting rest).map (.literal c :: ·)
    else if c = '"' then unquoteFrom (if quoting = .bare then .double else .bare) rest
    else if c = '\'' && quoting = .bare then unquoteFrom .single rest
    else (unquoteFrom quoting rest).map (.literal c :: ·)
termination_by _ raw => raw.length
decreasing_by
  all_goals simp only [List.length_cons]
  all_goals first
    | omega
    | (have shorter := reference?_shorter _found; omega)

/-- The word that a raw word of a line stands for. -/
def unquote (raw : Text) : Except ParseFault Word :=
  (unquoteFrom .bare raw).mapError (.openQuote · raw)

end Word

end Errand.Shell
