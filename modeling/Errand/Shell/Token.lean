/-
# Tokens of a command line

A line is cut into words, separator glyphs and standalone backslashes. Words keep
their quoting and escapes, so no decision about their meaning is made here. The
scan is one recursion over the characters of the line: its state is the kind of
quoting the scan stands in and the word that has begun, if one has.
-/
import Errand.Shell.ParseFault

namespace Errand.Shell

/-- A glyph between two commands of a line. -/
inductive Separator where
  /-- The next command reads the output of the one before: `|`. -/
  | pipe
  /-- The glyph `||`. -/
  | or
  /-- The glyph `&&`. -/
  | and
  /-- The glyph `;`. -/
  | semi
  deriving DecidableEq, Repr

/-- The characters of a separator. -/
def Separator.glyph : Separator → Text
  | .pipe => ['|']
  | .or => ['|', '|']
  | .and => ['&', '&']
  | .semi => [';']

/-- A lexical unit of a command line. -/
inductive Token where
  /-- A word as it stands in the line, quotes and escapes included. -/
  | word (raw : Text)
  /-- A separator outside quotes. -/
  | separator (s : Separator)
  /-- A backslash right before a free-standing separator, or at the end of the line. -/
  | backslash
  deriving DecidableEq, Repr

/-- The characters a token stands for. -/
def Token.source : Token → Text
  | .word raw => raw
  | .separator s => s.glyph
  | .backslash => ['\\']

/-- What the quotes around a position make of the characters there. -/
inductive Quoting where
  | bare
  | single
  | double
  deriving DecidableEq, Repr

/-- The separator that a text begins with. The longer glyph wins. -/
def Separator.atStart? : Text → Option Separator
  | '|' :: '|' :: _ => some .or
  | '&' :: '&' :: _ => some .and
  | '|' :: _ => some .pipe
  | ';' :: _ => some .semi
  | _ => none

/-- Whether a text begins with a separator that ends the text or is followed by
white space. -/
def freeStanding (text : Text) : Bool :=
  match Separator.atStart? text with
  | none => false
  | some s => match text.drop s.glyph.length with
    | [] => true
    | c :: _ => isBlank c

namespace Token

/-- The word that has begun, as a token. -/
def close : Option Text → List Token
  | none => []
  | some raw => [.word raw]

/-- The word that has begun, or a new one, with `added` at its end. -/
def extend (begun : Option Text) (added : Text) : Option Text :=
  some (begun.getD [] ++ added)

/-- Tokens of the rest of a line. `quoting` says which quotes are open and
`begun` holds the word that has begun. Fails with the quote that is still open at the end
of the line. -/
def scan : Quoting → Option Text → Text → Except Char (List Token)
  | .bare, begun, [] => .ok (close begun)
  | .single, _, [] => .error '\''
  | .double, _, [] => .error '"'
  | .single, begun, c :: rest =>
    scan (if c = '\'' then .bare else .single) (extend begun [c]) rest
  | .double, begun, '\\' :: next :: rest => scan .double (extend begun ['\\', next]) rest
  | .double, begun, c :: rest =>
    scan (if c = '"' then .bare else .double) (extend begun [c]) rest
  | .bare, begun, '\\' :: [] => .ok (close begun ++ [.backslash])
  | .bare, begun, '\\' :: next :: rest =>
    if begun.isNone && freeStanding (next :: rest) then
      (scan .bare none (next :: rest)).map (.backslash :: ·)
    else scan .bare (extend begun ['\\', next]) rest
  | .bare, begun, '|' :: '|' :: rest =>
    (scan .bare none rest).map (close begun ++ .separator .or :: ·)
  | .bare, begun, '&' :: '&' :: rest =>
    (scan .bare none rest).map (close begun ++ .separator .and :: ·)
  | .bare, begun, '|' :: rest =>
    (scan .bare none rest).map (close begun ++ .separator .pipe :: ·)
  | .bare, begun, ';' :: rest =>
    (scan .bare none rest).map (close begun ++ .separator .semi :: ·)
  | .bare, begun, c :: rest =>
    if isBlank c then (scan .bare none rest).map (close begun ++ ·)
    else if c = '#' && begun.isNone then .ok []
    else scan (if c = '\'' then .single else if c = '"' then .double else .bare)
      (extend begun [c]) rest

/-- The tokens of a line. A `#` that would begin a word hides the rest of the line. -/
def lex (line : Text) : Except ParseFault (List Token) :=
  (scan .bare none line).mapError (.openQuote · line)

end Token

end Errand.Shell
