/-
# Values that nobody asks for

They are only checked for their form. How deep they are nested does not matter: the
brackets that are open are kept in a list.
-/
import Errand.Json.Numeral
import Errand.Json.Quoted

namespace Errand.Json

/-- Whether a character may stand between two parts of a JSON text. -/
def isGap (c : Char) : Bool := c = ' ' || c = '\n' || c = '\t' || c = '\r'

/-- The text without the gap at its start. -/
def skipGap (text : Text) : Text := text.dropWhile isGap

/-- What follows a word that the text must begin with. -/
def expectWord : (word : Text) → Text → Except Fault Text
  | [], text => .ok text
  | _ :: _, [] => .error .cutShort
  | c :: word, found :: rest => if c = found then expectWord word rest else .error .malformed

/-- What follows a mark that must come next. -/
def expectMark (mark : Char) (text : Text) : Except Fault Text :=
  match skipGap text with
  | [] => .error .cutShort
  | c :: rest => if c = mark then .ok rest else .error .malformed

/-- The text of a key and of the colon behind it, with what follows. -/
def key (strict : Bool) (text : Text) : Except Fault (Text × Text) := do
  characters strict (← expectMark '"' text)

/-- A bracket that is open. -/
inductive Frame where
  | list
  | object
  deriving DecidableEq, Repr

/-- The mark that closes a bracket. -/
def Frame.closing : Frame → Char
  | .list => ']'
  | .object => '\x7d'

/-- What follows the key of the next member, where members have keys. -/
def Frame.skipKey (frame : Frame) (text : Text) : Except Fault Text :=
  match frame with
  | .list => .ok text
  | .object => do
    let (_, rest) ← key false text
    expectMark ':' rest

/-- Where reading goes on behind a value that stands in these brackets: the brackets
still open, and the text of the next value in the innermost of them. Without brackets
left the value is read. -/
def afterValue : List Frame → Text → Except Fault (List Frame × Text)
  | [], text => .ok ([], text)
  | frame :: frames, text =>
    match skipGap text with
    | [] => .error .cutShort
    | c :: rest =>
      if c = frame.closing then afterValue frames rest
      else if c = ',' then (frame.skipKey rest).map fun behind => (frame :: frames, behind)
      else .error .malformed

/-- Where reading goes on behind a bracket that has just opened. -/
def afterOpening (frame : Frame) (frames : List Frame) (text : Text) :
    Except Fault (List Frame × Text) :=
  match skipGap text with
  | [] => .error .cutShort
  | c :: rest =>
    if c = frame.closing then afterValue frames rest
    else (frame.skipKey (c :: rest)).map fun behind => (frame :: frames, behind)

/-- What follows a value without brackets. -/
def skipScalar : Text → Except Fault Text
  | [] => .error .cutShort
  | 'n' :: rest => expectWord ['u', 'l', 'l'] rest
  | 't' :: rest => expectWord ['r', 'u', 'e'] rest
  | 'f' :: rest => expectWord ['a', 'l', 's', 'e'] rest
  | '"' :: rest => (characters false rest).map (·.2)
  | c :: rest => if c = '-' || c.isDigit then skipNumeral (c :: rest) else .error .malformed

/-- One step through a value: a bracket that opens, or a value without brackets. -/
def skipStep (frames : List Frame) (text : Text) : Except Fault (List Frame × Text) :=
  match skipGap text with
  | '[' :: rest => afterOpening .list frames rest
  | '\x7b' :: rest => afterOpening .object frames rest
  | text => do afterValue frames (← skipScalar text)

/-- What follows a value that stands in these brackets, and the brackets. Every step
makes the text shorter, so the test of that never fails. -/
def skipFrom (frames : List Frame) (text : Text) : Except Fault Text :=
  match skipStep frames text with
  | .error fault => .error fault
  | .ok ([], rest) => .ok rest
  | .ok (frame :: open_, rest) =>
    if rest.length < text.length then skipFrom (frame :: open_) rest else .error .malformed
termination_by text.length

/-- What follows a value. -/
def skipValue (text : Text) : Except Fault Text := skipFrom [] text

end Errand.Json
