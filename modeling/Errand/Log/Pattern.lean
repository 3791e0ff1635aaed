/-
# Patterns for field values

A filter may ask for the value of a field by a regular expression. Only spans are asked
for their values, so nothing here is ever matched; but a filter with a malformed pattern
is refused, and this module says which patterns are well formed.

A pattern is read one character at a time. The reading has to remember how many groups
and classes of characters are open, and what the last characters began. A value ends at
the first closing brace, so a count for a repetition never ends, and its opening brace is
malformed wherever it does not stand for itself.
-/
import Errand.Text
import Errand.Text.Alphanumeric

namespace Errand.Log.Pattern

/-- What one item of a pattern stands for. -/
inductive Atom where
  | literal (c : Char)
  /-- One of several characters. -/
  | several
  /-- A place between characters. -/
  | between
  deriving DecidableEq, Repr

/-! ## Escapes -/

/-- The value of a hexadecimal digit. -/
def hexDigit? (c : Char) : Option Nat :=
  if c.isDigit then some (c.toNat - '0'.toNat)
  else if 'a' ≤ c ∧ c ≤ 'f' then some (c.toNat - 'a'.toNat + 10)
  else if 'A' ≤ c ∧ c ≤ 'F' then some (c.toNat - 'A'.toNat + 10)
  else none

/-- The character whose code point the digits write, if there is one. -/
def charOfHex? (digits : Text) : Option Char := do
  let code ← digits.foldlM (fun value c => (hexDigit? c).map (value * 16 + ·)) 0
  if code.isValidChar then some (Char.ofNat code) else none

/-- The letters that introduce a code point, with its number of digits. -/
def codeLetters : List (Char × Nat) := [('x', 2), ('u', 4), ('U', 8)]

/-- The letters for a control character. -/
def controlLetters : List (Char × Char) :=
  [('a', '\x07'), ('f', '\x0c'), ('t', '\t'), ('n', '\n'), ('r', '\r'), ('v', '\x0b')]

/-- What an escape of one character stands for. The word boundaries are refused like any
unknown letter: a pattern is matched without a look to either side. -/
def shortEscape? (c : Char) : Option Atom :=
  if "dswDSW".toList.contains c then some .several
  else if c = 'A' || c = 'z' then some .between
  else match controlLetters.lookup c with
    | some control => some (.literal control)
    | none =>
      if c.isAlphanum || c = '<' || c = '>' || 0x80 ≤ c.toNat then none else some (.literal c)

/-- What the characters behind a backslash stand for: nothing that exists, nothing yet,
or an item. -/
def escape? : Text → Option (Option Atom)
  | [] => some none
  | c :: more =>
    if c = 'p' || c = 'P' then
      match more with
      | [] => some none
      | category :: _ =>
        if "LMNPSZC".toList.contains category then some (some .several) else none
    else match codeLetters.lookup c with
      | some size =>
        if more.length < size then some none
        else (charOfHex? more).map fun decoded => some (.literal decoded)
      | none => (shortEscape? c).map some

/-! ## Groups with a question mark -/

/-- Whether a text may name a group. -/
def isGroupName : Text → Bool
  | [] => false
  | first :: more =>
    (first = '_' || (Text.isAlphanumeric first && !first.isDigit)) &&
      more.all fun c => "_.[]".toList.contains c || Text.isAlphanumeric c

/-- Whether a text lists flags: each at most once, with at most one minus sign, which is
not the last of them. -/
def areFlags (text : Text) : Bool :=
  text.all "imsUuxR-".toList.contains && text.eraseDups.length = text.length &&
    text.getLast? ≠ some '-'

/-! ## The reading -/

/-- Where the reading stands. -/
inductive Place where
  /-- Outside all classes. A repetition needs something `repeatable` in front of it. -/
  | outside (repeatable : Bool)
  /-- Behind an opening parenthesis. -/
  | parenthesis
  /-- Behind a parenthesis with a question mark, and the text behind these. -/
  | extension (text : Text)
  /-- Behind the bracket that opens a class. `plain` is false once a caret followed it. -/
  | classStart (plain : Bool)
  /-- In a class. A range may begin with `last`. -/
  | member (last : Option Atom)
  /-- Behind the hyphen of a range that begins with `low`. -/
  | range (low : Atom)
  /-- Behind a backslash and `text`, where the escape stands at the place `behind`. -/
  | escape (text : Text) (behind : Place)
  deriving DecidableEq, Repr

/-- A place with the number of groups and of classes that are open. -/
structure State where
  groups : Nat
  classes : Nat
  place : Place
  deriving DecidableEq, Repr

/-- The place behind an item. A range takes two literals in order, and a class has no
places between characters. -/
def Place.take? (atom : Atom) : Place → Option Place
  | .outside _ => some (.outside true)
  | .member _ => if atom = .between then none else some (.member (some atom))
  | .range (.literal low) => match atom with
    | .literal high => if low ≤ high then some (.member none) else none
    | _ => none
  | _ => none

namespace State

/-- The state at another place. -/
def move (state : State) (place : Place) : State := { state with place }

/-- The state after a class is closed. -/
def closeClass (state : State) : State :=
  if state.classes ≤ 1 then ⟨state.groups, 0, .outside true⟩
  else ⟨state.groups, state.classes - 1, .member none⟩

/-- The state after a class is opened. -/
def openClass (state : State) : State :=
  ⟨state.groups, state.classes + 1, .classStart true⟩

/-- The state after one more character outside all classes. -/
def outside? (state : State) (repeatable : Bool) (c : Char) : Option State :=
  if c = '(' then some (state.move .parenthesis)
  else if c = ')' then
    if state.groups = 0 then none else some ⟨state.groups - 1, 0, .outside true⟩
  else if c = '|' then some (state.move (.outside false))
  else if c = '*' || c = '+' || c = '?' then
    if repeatable then some (state.move (.outside true)) else none
  else if c = '\x7b' then none
  else if c = '[' then some state.openClass
  else if c = '\\' then some (state.move (.escape [] (.outside repeatable)))
  else some (state.move (.outside true))

/-- The state after one more character behind a parenthesis and a question mark. -/
def extension? (state : State) (text : Text) (c : Char) : Option State :=
  let opened : State := ⟨state.groups + 1, 0, .outside false⟩
  if c = '>' then
    match text with
    | '<' :: name | 'P' :: '<' :: name => if isGroupName name then some opened else none
    | _ => none
  else if c = ':' then if areFlags text then some opened else none
  else if c = ')' then
    if areFlags text && !text.isEmpty then some (state.move (.outside false)) else none
  else some (state.move (.extension (text ++ [c])))

/-- The state after one more character in a class. A hyphen with nothing in front of it
that could begin a range stands for itself. -/
def member? (state : State) (last : Option Atom) (c : Char) : Option State :=
  if c = ']' then some state.closeClass
  else if c = '[' then some state.openClass
  else if c = '\\' then some (state.move (.escape [] (.member last)))
  else if c = '-' then
    match last with
    | some atom => some (state.move (.range atom))
    | none => some (state.move (.member none))
  else some (state.move (.member (some (.literal c))))

/-- The state after one more character behind a hyphen. A bracket that closes the class
leaves the hyphen to stand for itself, and a second hyphen makes it a difference. -/
def range? (state : State) (low : Atom) (c : Char) : Option State :=
  if c = ']' then some state.closeClass
  else if c = '-' then some (state.move (.member none))
  else if c = '\\' then some (state.move (.escape [] (.range low)))
  else ((Place.range low).take? (.literal c)).map state.move

/-- The state after one more character, if the pattern may go on with it. -/
def step? (state : State) (c : Char) : Option State :=
  match state.place with
  | .outside repeatable => state.outside? repeatable c
  | .parenthesis =>
    if c = '?' then some (state.move (.extension []))
    else (⟨state.groups + 1, 0, .outside false⟩ : State).outside? false c
  | .extension text => state.extension? text c
  | .classStart plain =>
    if c = '^' && plain then some (state.move (.classStart false))
    else if c = ']' then some (state.move (.member none))
    else state.member? none c
  | .member last => state.member? last c
  | .range low => state.range? low c
  | .escape text behind =>
    match escape? (text ++ [c]) with
    | none => none
    | some none => some (state.move (.escape (text ++ [c]) behind))
    | some (some atom) => (behind.take? atom).map state.move

/-- Whether a pattern may end here: outside all groups and classes, and with nothing
begun. -/
def isComplete (state : State) : Bool :=
  match state.place with
  | .outside _ => state.groups = 0
  | _ => false

end State

/-- Whether a pattern is well formed. -/
def isWellFormed (pattern : Text) : Bool :=
  match pattern.foldlM State.step? ⟨0, 0, .outside false⟩ with
  | some state => state.isComplete
  | none => false

end Errand.Log.Pattern
