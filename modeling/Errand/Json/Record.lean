/-
# Records in JSON

A record is an object whose members have known names, in any order, or a list of the
same values in the order of the names. What is missing keeps the value it had; members
with other names are skipped; a known name must not come twice.
-/
import Errand.Json.Skip

namespace Errand.Json

/-- A reader of a value at the start of a text, which gives what follows it too. -/
abbrev Reader (α : Type) := Text → Except Fault (α × Text)

/-- How a value is wrong that is not of the kind asked for. It must at least be one. -/
def unsuitable (text : Text) : Fault :=
  let verdict (outcome : Except Fault Text) : Fault :=
    match outcome with
    | .ok _ => .unsuitable
    | .error fault => fault
  match text with
  | [] => .cutShort
  | 'n' :: rest => verdict (expectWord ['u', 'l', 'l'] rest)
  | 't' :: rest => verdict (expectWord ['r', 'u', 'e'] rest)
  | 'f' :: rest => verdict (expectWord ['a', 'l', 's', 'e'] rest)
  | '"' :: rest => verdict ((characters true rest).map (·.2))
  | '[' :: _ => .unsuitable
  | '\x7b' :: _ => .unsuitable
  | c :: rest =>
    if c = '-' || c.isDigit then verdict ((number (c :: rest)).map (·.2)) else .malformed

/-- Read a text. -/
def readText : Reader Text := fun text =>
  match skipGap text with
  | '"' :: rest => characters true rest
  | other => .error (unsuitable other)

/-- Read a natural number below a bound. -/
def readNatural (bound : Nat) : Reader Nat := fun text =>
  match skipGap text with
  | [] => .error .cutShort
  | c :: rest =>
    if c = '-' || c.isDigit then do
      let (found, behind) ← number (c :: rest)
      match found.natural? with
      | some value => if value < bound then return (value, behind) else throw .unsuitable
      | none => throw .unsuitable
    else .error (unsuitable (c :: rest))

/-- Read a value or the word for its absence. -/
def readOptional {α : Type} (read : Reader α) : Reader (Option α) := fun text =>
  match skipGap text with
  | 'n' :: rest => (expectWord ['u', 'l', 'l'] rest).map fun behind => (none, behind)
  | other => (read other).map fun (value, behind) => (some value, behind)

/-- A member that a record knows: its name, and how its value changes the record. -/
structure Member (σ : Type) where
  name : Text
  read : Reader (σ → σ)

/-- A member whose value is read by `read` and put into the record by `put`. -/
def Member.of {σ α : Type} (name : String) (read : Reader α) (put : α → σ → σ) : Member σ where
  name := name.toList
  read text := (read text).map fun (value, behind) => (put value, behind)

/-- What must follow the values of a list. A list that goes on is too long. -/
def endOfList (text : Text) : Except Fault Text := expectMark ']' text

/-- Where the next value of a list stands, if there is one. -/
def nextElement (isFirst : Bool) (text : Text) : Except Fault (Option Text) :=
  match skipGap text with
  | [] => .error .cutShort
  | c :: rest =>
    if c = ']' then .ok none
    else if isFirst then .ok (some (c :: rest))
    else if c = ',' then
      match skipGap rest with
      | [] => .error .cutShort
      | next :: behind => if next = ']' then .error .malformed else .ok (some (next :: behind))
    else .error .malformed

/-- The record read from a list of values, behind the opening bracket. -/
def elements {σ : Type} (isFirst : Bool) : List (Member σ) → σ → Reader σ
  | [], record, text => (endOfList text).map fun rest => (record, rest)
  | member :: members, record, text => do
    match ← nextElement isFirst text with
    | none => return (record, ← endOfList text)
    | some element =>
      let (change, rest) ← member.read element
      elements false members (change record) rest

/-- Where the key of the next member stands, if there is one. -/
def nextMember (isFirst : Bool) (text : Text) : Except Fault (Option Text) :=
  match skipGap text with
  | [] => .error .cutShort
  | c :: rest =>
    if c = '\x7d' then .ok none
    else if isFirst then .ok (some (c :: rest))
    else if c = ',' then .ok (some rest)
    else .error .malformed

/-- One member: the record and the names met so far after it, and what follows it. -/
def oneMember {σ : Type} (members : List (Member σ)) (seen : List Text) (record : σ)
    (text : Text) : Except Fault (σ × List Text × Text) := do
  let (name, rest) ← key true text
  match members.find? (·.name = name) with
  | none =>
    let rest ← skipValue (← expectMark ':' rest)
    return (record, seen, rest)
  | some member =>
    if seen.contains name then throw .unsuitable
    else
      let (change, rest) ← member.read (← expectMark ':' rest)
      return (change record, name :: seen, rest)

/-- The record read from the members of an object that are still to come. Every member
makes the text shorter, so the test of that never fails. -/
def membersFrom {σ : Type} (members : List (Member σ)) (isFirst : Bool) (seen : List Text)
    (record : σ) (text : Text) : Except Fault (σ × Text) :=
  match nextMember isFirst text with
  | .error fault => .error fault
  | .ok none => (expectMark '\x7d' text).map fun rest => (record, rest)
  | .ok (some start) =>
    match oneMember members seen record start with
    | .error fault => .error fault
    | .ok (record, seen, rest) =>
      if rest.length < text.length then membersFrom members false seen record rest
      else .error .malformed
termination_by text.length

/-- Read a record whose missing members keep the values of `initial`. -/
def readRecord {σ : Type} (members : List (Member σ)) (initial : σ) : Reader σ := fun text =>
  match skipGap text with
  | '[' :: rest => elements true members initial rest
  | '\x7b' :: rest => membersFrom members true [] initial rest
  | other => .error (unsuitable other)

/-- The value that a whole text holds. -/
def readAll {α : Type} (read : Reader α) (text : Text) : Except Fault α := do
  let (value, rest) ← read text
  if (skipGap rest).isEmpty then return value else throw .malformed

end Errand.Json
