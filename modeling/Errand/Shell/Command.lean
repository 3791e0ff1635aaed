/-
# Commands

A command is a non-empty list of words in use, the program first; an empty one
only occurs while a line is being grouped. Substitution is deliberately modest: one
round puts the value of one variable into one word, and the word it went into
refers to nothing afterwards.
-/
import Errand.Environment
import Errand.Shell.Word

namespace Errand.Shell

/-- A program or builtin name followed by its arguments. -/
structure Command where
  words : List Word
  deriving DecidableEq, Repr

namespace Word

/-- The word with the value of the first known variable in place of its reference,
if it refers to a known variable at all. What is left is literal text. -/
def expandFirst? (env : Environment) : Word → Option Word
  | [] => none
  | part :: parts =>
    match part.name?.bind env.get? with
    | some value => some (ofText (value ++ text parts))
    | none => (expandFirst? env parts).map (ofText part.text ++ ·)

end Word

namespace Command

/-- A command of plain texts that refer to nothing. -/
def ofTexts (texts : List Text) : Command := ⟨texts.map Word.ofText⟩

/-- The texts of the words, program first. -/
def args (command : Command) : List Text := command.words.map Word.text

/-- The program or builtin name. -/
def program? (command : Command) : Option Text := command.args.head?

/-- The words with the first one that refers to a known variable expanded. -/
def expandWords (env : Environment) : List Word → List Word
  | [] => []
  | word :: words =>
    match word.expandFirst? env with
    | some expanded => expanded :: words
    | none => word :: expandWords env words

/-- One round of substitution: the first word that refers to a known variable has
the first such reference replaced by the value. -/
def expandFirst (env : Environment) (command : Command) : Command :=
  ⟨expandWords env command.words⟩

end Command

end Errand.Shell
