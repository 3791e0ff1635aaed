/-
# Pipelines

A line is a sequence of stages. Tokens become items once every standalone
backslash has turned the glyph behind it into a plain word, and the items between
two cuts are one stage. A stage reads the one before it exactly when the cut right
before it is a single `|`.
-/
import Errand.Shell.Command
import Errand.Shell.Words

namespace Errand.Shell

/-- What a token amounts to once escapes are resolved. -/
inductive Item where
  /-- A raw word, its quoting still in place. -/
  | word (raw : Text)
  /-- Text taken as it is. -/
  | literal (text : Text)
  /-- A separator that ends a stage. -/
  | cut (separator : Separator)
  deriving DecidableEq, Repr

namespace Item

/-- The items of a token list of which `escapes` backslashes were met and have not
found a separator yet. Backslashes that never find one are words of their own. -/
def resolve : Nat → List Token → List Item
  | escapes, [] => List.replicate escapes (.literal ['\\'])
  | escapes, .backslash :: tokens => resolve (escapes + 1) tokens
  | 0, .separator s :: tokens => .cut s :: resolve 0 tokens
  | escapes + 1, .separator s :: tokens => .literal s.glyph :: resolve escapes tokens
  | escapes, .word raw :: tokens => .word raw :: resolve escapes tokens

/-- The items of a token list. -/
def ofTokens (tokens : List Token) : List Item := resolve 0 tokens

/-- The items without a cut at their very end. -/
def dropFinalCut : List Item → List Item
  | [] => []
  | [.cut _] => []
  | item :: items => item :: dropFinalCut items

end Item

/-- One command of a line. -/
structure Stage where
  command : Command
  /-- Whether its input is the output of the stage before. -/
  readsPrevious : Bool
  deriving DecidableEq, Repr

/-- The texts of a stage, program first. -/
def Stage.args (stage : Stage) : List Text := stage.command.args

/-- The stages of a line, in order. -/
abbrev Pipeline := List Stage

namespace Pipeline

/-- The stage of the words collected since the last cut, if there are any. -/
def closeGroup (isFirst : Bool) (preceding : Option Separator) (group : List Word) :
    List Stage :=
  if group.isEmpty then [] else [⟨⟨group⟩, !isFirst && preceding == some .pipe⟩]

/-- The stages of the items still to read. `group` holds the words since the last
cut, which was `preceding`, and `isFirst` says that no stage has been closed. -/
def group (isFirst : Bool) (preceding : Option Separator) (words : List Word) :
    List Item → Except ParseFault (List Stage)
  | [] => .ok (closeGroup isFirst preceding words)
  | .word raw :: items => do
    let word ← Word.unquote raw
    group isFirst preceding (words ++ [word]) items
  | .literal text :: items => group isFirst preceding (words ++ [Word.ofText text]) items
  | .cut s :: items => do
    let later ← group (isFirst && words.isEmpty) (some s) [] items
    return closeGroup isFirst preceding words ++ later

/-- The line as one stage of plainly split words. -/
def single (line : Text) : Except ParseFault Pipeline := do
  match ← Words.split line with
  | [] => .error (.noCommand line)
  | words => .ok [⟨Command.ofTexts words, false⟩]

/-- The stages of a line. A separator at the end is ignored and separators in a row
count as one, the last of them. A line that is nothing but one separator has no cut
left, so it is split plainly. -/
def split (line : Text) : Except ParseFault Pipeline := do
  match Item.dropFinalCut (Item.ofTokens (← Token.lex line)) with
  | [] => single line
  | items =>
    match ← group true none [] items with
    | [] => .error (.noCommand line)
    | stages => .ok stages

end Pipeline

end Errand.Shell
