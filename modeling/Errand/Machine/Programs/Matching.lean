/-
# Programs that test or change characters

Both work on bytes. Sets of bytes are written as in `a-z`, with escapes and named
classes; patterns know the point, the star, lists in brackets and the two anchors.
-/
import Errand.Machine.Program

namespace Errand.Machine.Programs

open Program

/-- The byte that a letter stands for behind a backslash. -/
def escapedByte? : UInt8 → Option UInt8
  | 97 => some 7
  | 98 => some 8
  | 102 => some 12
  | 110 => some 10
  | 114 => some 13
  | 116 => some 9
  | 118 => some 11
  | 92 => some 92
  | _ => none

/-- Whether a byte is an octal digit. -/
def isOctal (byte : UInt8) : Bool := 48 ≤ byte && byte ≤ 55

/-- The value of octal digits. -/
def octalValue (digits : Bytes) : UInt8 :=
  (digits.foldl (fun (value : Nat) (digit : UInt8) => value * 8 + (digit.toNat - 48)) 0).toUInt8

/-- All bytes, in order. -/
def allBytes : Bytes := (List.range 256).map Nat.toUInt8

/-- Whether a byte is an ASCII letter of lower case. -/
def isLowerByte (byte : UInt8) : Bool := 97 ≤ byte && byte ≤ 122

/-- Whether a byte is an ASCII letter of upper case. -/
def isUpperByte (byte : UInt8) : Bool := 65 ≤ byte && byte ≤ 90

/-- Whether a byte is an ASCII digit. -/
def isDigitByte (byte : UInt8) : Bool := 48 ≤ byte && byte ≤ 57

/-- The classes of bytes that have names. -/
def namedClasses : List (String × (UInt8 → Bool)) :=
  [("lower", isLowerByte), ("upper", isUpperByte), ("digit", isDigitByte),
   ("alpha", fun b => isLowerByte b || isUpperByte b),
   ("alnum", fun b => isLowerByte b || isUpperByte b || isDigitByte b),
   ("space", fun b => b = 32 || (9 ≤ b && b ≤ 13)), ("blank", fun b => b = 32 || b = 9),
   ("punct", fun b => (33 ≤ b && b ≤ 47) || (58 ≤ b && b ≤ 64) || (91 ≤ b && b ≤ 96) ||
     (123 ≤ b && b ≤ 126)),
   ("cntrl", fun b => b < 32 || b = 127)]

/-- The test of a named class of bytes. -/
def classTest? (name : Text) : Option (UInt8 → Bool) :=
  (namedClasses.find? fun (known, _) => known.toList = name).map (·.2)

/-- A set of bytes with its escapes resolved. Each member says whether it was escaped. -/
def unescapeSet : Bytes → List (UInt8 × Bool)
  | [] => []
  | 92 :: a :: b :: c :: rest =>
    if isOctal a && isOctal b && isOctal c then
      (octalValue [a, b, c], true) :: unescapeSet rest
    else if isOctal a && isOctal b then (octalValue [a, b], true) :: unescapeSet (c :: rest)
    else if isOctal a then (octalValue [a], true) :: unescapeSet (b :: c :: rest)
    else ((escapedByte? a).getD a, true) :: unescapeSet (b :: c :: rest)
  | [92, a, b] =>
    if isOctal a && isOctal b then [(octalValue [a, b], true)]
    else if isOctal a then (octalValue [a], true) :: unescapeSet [b]
    else ((escapedByte? a).getD a, true) :: unescapeSet [b]
  | [92, a] => if isOctal a then [(octalValue [a], true)] else [((escapedByte? a).getD a, true)]
  | byte :: rest => (byte, false) :: unescapeSet rest

/-- The bytes from one to another. -/
def byteRange (low high : UInt8) : Bytes :=
  (List.range (high.toNat + 1 - low.toNat)).map fun offset => (low.toNat + offset).toUInt8

/-- The members of a set, ranges written out. -/
def expandSet : List (UInt8 × Bool) → Bytes
  | (low, _) :: (45, false) :: (high, escaped) :: rest =>
    if low ≤ high then byteRange low high ++ expandSet rest
    else low :: expandSet ((45, false) :: (high, escaped) :: rest)
  | (byte, _) :: rest => byte :: expandSet rest
  | [] => []
termination_by members => members.length

/-- The bytes that a set stands for. -/
def setOf (text : Text) : Bytes :=
  match text with
  | '[' :: ':' :: rest =>
    match (Text.cut? ':' rest).bind fun (name, behind) =>
      if behind = [']'] then classTest? name else none with
    | some test => allBytes.filter test
    | none => expandSet (unescapeSet (Utf8.encode text))
  | _ => expandSet (unescapeSet (Utf8.encode text))

/-- The byte that takes the place of another. The last member of the second set stands
in for those that it lacks. -/
def substituted (wanted replacements : Bytes) (byte : UInt8) : UInt8 :=
  match (wanted.reverse.idxOf? byte).map (wanted.length - 1 - ·) with
  | none => byte
  | some index => (replacements[index]? <|> replacements.getLast?).getD byte

/-- The bytes with each run of one member of a set cut down to one. `previous` is the
byte before. -/
def squeezed (set : Bytes) (kept : Bytes) (previous : Option UInt8) : Bytes → Bytes
  | [] => kept.reverse
  | byte :: rest =>
    if previous = some byte && set.contains byte then squeezed set kept previous rest
    else squeezed set (byte :: kept) (some byte) rest

/-- The bytes mapped through a table. -/
def mapBytes (f : UInt8 → UInt8) (bytes : Bytes) : Bytes :=
  let table := (allBytes.map f).toArray
  bytes.map fun byte => table[byte.toNat]?.getD byte

/-- Replace, delete or squeeze bytes: `tr`. -/
def replaced : Program := fun setting stdin =>
  let (options, names) := splitOptions setting.args
  let flags := letters options
  let chosen (text : Text) : Bytes :=
    if flags.contains 'c' || flags.contains 'C' then
      allBytes.filter fun byte => !(setOf text).contains byte
    else setOf text
  let answer (change : Bytes → Bytes) : Outcome :=
    match stdin.ending with
    | .repeats bytes =>
      ⟨⟨stdin.writes.map fun (moment, written) => (moment, change written),
        .repeats (change bytes)⟩, .empty, .exited 0, none⟩
    | _ => .afterReading stdin fun bytes => (change bytes, 0)
  match flags.find? fun c => !(['d', 's', 'c', 'C', 't'].contains c) with
  | some letter => invalidOption "tr" letter
  | none =>
    match names with
    | [] => missingOperand "tr"
    | [set] =>
      if flags.contains 'd' then
        let unwanted := chosen set
        answer fun bytes => bytes.filter fun byte => !unwanted.contains byte
      else if flags.contains 's' then
        let set := chosen set
        answer fun bytes => squeezed set [] none bytes
      else
        .complains (lineOf ("tr: missing operand after '".toList ++ set ++ ['\'']) ++
          lineOf "Two strings must be given when translating.".toList ++
          lineOf "Try 'tr --help' for more information.".toList) 1
    | set :: replacement :: _ =>
      let wanted := chosen set
      let replacements := setOf replacement
      if flags.contains 'd' then
        answer fun bytes =>
          squeezed replacements [] none (bytes.filter fun byte => !wanted.contains byte)
      else
        let map := mapBytes (substituted wanted replacements)
        if flags.contains 's' then answer fun bytes => squeezed replacements [] none (map bytes)
        else answer map

/-- What one place of a pattern takes. -/
inductive Atom where
  | any
  | byte (byte : UInt8)
  | oneOf (negated : Bool) (members : Bytes)
  deriving DecidableEq, Repr

/-- Whether an atom takes a byte. -/
def Atom.takes : Atom → UInt8 → Bool
  | .any, _ => true
  | .byte wanted, found => found = wanted
  | .oneOf negated members, found => members.contains found != negated

/-- A pattern: atoms that are taken once or any number of times, and its two anchors. -/
structure Pattern where
  atStart : Bool
  atoms : List (Atom × Bool)
  atEnd : Bool
  deriving DecidableEq, Repr

/-- The atom at the start of a pattern, with the rest. -/
def Atom.read? : Bytes → Option (Atom × Bytes)
  | [] => none
  | 92 :: literal :: rest => some (.byte literal, rest)
  | 46 :: rest => some (.any, rest)
  | 91 :: rest =>
    let negated := rest.head? == some 94
    let rest := if negated then rest.drop 1 else rest
    let members := rest.takeWhile (· ≠ 93)
    some (.oneOf negated (expandSet (members.map (·, false))), rest.drop (members.length + 1))
  | literal :: rest => some (.byte literal, rest)

/-- At most `fuel` atoms of a pattern, each with whether a star follows it. -/
def Pattern.atomsFrom : (fuel : Nat) → Bytes → List (Atom × Bool)
  | 0, _ => []
  | fuel + 1, bytes =>
    match Atom.read? bytes with
    | none => []
    | some (atom, 42 :: rest) => (atom, true) :: atomsFrom fuel rest
    | some (atom, rest) => (atom, false) :: atomsFrom fuel rest

/-- The pattern that some text writes. -/
def Pattern.ofText (literally : Bool) (text : Text) : Pattern :=
  let bytes := Utf8.encode text
  if literally then ⟨false, bytes.map fun byte => (.byte byte, false), false⟩
  else
    let atStart := bytes.head? == some 94
    let bytes := if atStart then bytes.drop 1 else bytes
    let atEnd := bytes.getLast? == some 36
    let bytes := if atEnd then bytes.dropLast else bytes
    ⟨atStart, Pattern.atomsFrom bytes.length bytes, atEnd⟩

/-- Whether atoms match at the start of some bytes. -/
def matchesHere (atEnd : Bool) : List (Atom × Bool) → Bytes → Bool
  | [], bytes => !atEnd || bytes.isEmpty
  | (_, false) :: _, [] => false
  | (atom, false) :: atoms, byte :: rest => atom.takes byte && matchesHere atEnd atoms rest
  | (_, true) :: atoms, [] => matchesHere atEnd atoms []
  | (atom, true) :: atoms, byte :: rest =>
    matchesHere atEnd atoms (byte :: rest) ||
      (atom.takes byte && matchesHere atEnd ((atom, true) :: atoms) rest)
termination_by atoms bytes => (bytes.length, atoms.length)

/-- Whether a pattern matches somewhere in a line. -/
def Pattern.matches (pattern : Pattern) (line : Bytes) : Bool :=
  matchesHere pattern.atEnd pattern.atoms line ||
    (!pattern.atStart && match line with
      | [] => false
      | _ :: rest => { pattern with atStart := false }.matches rest)
termination_by line.length

/-- A byte in lower case. -/
def foldByte (byte : UInt8) : UInt8 := if isUpperByte byte then byte + 32 else byte

/-- The lines that a pattern matches: `grep`. -/
def matching : Program := fun setting stdin =>
  let (options, names) := splitOptions setting.args
  let flags := letters options
  match names with
  | [] => .complains (lineOf "Usage: grep [OPTION]... PATTERNS [FILE]...".toList ++
      lineOf "Try 'grep --help' for more information.".toList) 2
  | patternText :: names =>
    let fold := flags.contains 'i'
    let patternText := if fold then patternText.foldCase else patternText
    let pattern := Pattern.ofText (flags.contains 'F') patternText
    let pattern := if flags.contains 'x' then { pattern with atStart := true, atEnd := true }
      else pattern
    let isHit (line : Bytes) : Bool :=
      pattern.matches (if fold then line.map foldByte else line) != flags.contains 'v'
    filter "grep" setting stdin names fun bytes =>
      let hits := ((byteLines bytes).zipIdx 1).filter fun (line, _) => isHit line
      let code := if hits.isEmpty then 1 else 0
      if flags.contains 'q' then ([], code)
      else if flags.contains 'c' then (Utf8.encode (lineOf (Decimal.ofNat hits.length)), code)
      else (unlines (hits.map fun (line, number) =>
        if flags.contains 'n' then Utf8.encode (Decimal.ofNat number ++ [':']) ++ line
        else line), code)

end Errand.Machine.Programs
