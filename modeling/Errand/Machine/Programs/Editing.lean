/-
# The program that edits lines

`sed` with the commands `s`, `p`, `d` and `q`, each for all lines, for one line, for a
range of numbers, for the last line, or for the lines that a pattern matches.
-/
import Errand.Machine.Programs.Matching

namespace Errand.Machine.Programs

open Program

/-- How many bytes the atoms of a pattern take at the start of some bytes, at most. -/
def takenHere? (atEnd : Bool) : List (Atom × Bool) → Bytes → Option Nat
  | [], bytes => if atEnd && !bytes.isEmpty then none else some 0
  | (_, false) :: _, [] => none
  | (atom, false) :: atoms, byte :: rest =>
    if atom.takes byte then (takenHere? atEnd atoms rest).map (· + 1) else none
  | (_, true) :: atoms, [] => takenHere? atEnd atoms []
  | (atom, true) :: atoms, byte :: rest =>
    let more := if atom.takes byte then
      (takenHere? atEnd ((atom, true) :: atoms) rest).map (· + 1) else none
    match more, takenHere? atEnd atoms (byte :: rest) with
    | some longer, some shorter => some (max longer shorter)
    | some longer, none => some longer
    | none, shorter => shorter
termination_by atoms bytes => (bytes.length, atoms.length)

/-- Which lines a command is for. -/
inductive LineChoice where
  | all
  | range (low high : Nat)
  | last
  | matched (pattern : Pattern)
  deriving DecidableEq, Repr

/-- A replacement: bytes, and places for what was matched. -/
abbrev Replacement := List (Option UInt8)

/-- What a command does. -/
inductive EditAction where
  | print
  | delete
  | quit
  | substitute (pattern : Pattern) (replacement : Replacement) (everywhere prints : Bool)
  deriving DecidableEq, Repr

/-- A command for the lines of its choice. -/
structure Edit where
  choice : LineChoice
  action : EditAction
  deriving DecidableEq, Repr

/-- The text up to a delimiter that no backslash precedes, with what follows it. -/
def delimited (delimiter : Char) : Text → Option (Text × Text)
  | [] => none
  | '\\' :: c :: rest =>
    (delimited delimiter rest).map fun (text, behind) =>
      (if c = delimiter then c :: text else '\\' :: c :: text, behind)
  | c :: rest =>
    if c = delimiter then some ([], rest)
    else (delimited delimiter rest).map fun (text, behind) => (c :: text, behind)

/-- The replacement that a text writes. -/
def replacementOf : Text → Replacement
  | [] => []
  | '\\' :: 'n' :: rest => some 10 :: replacementOf rest
  | '\\' :: c :: rest => (Utf8.encode [c]).map some ++ replacementOf rest
  | '&' :: rest => none :: replacementOf rest
  | c :: rest => (Utf8.encode [c]).map some ++ replacementOf rest

/-- The choice of lines in front of a command. -/
def lineChoice? (text : Text) : Option (LineChoice × Text) :=
  match text with
  | '$' :: rest => some (.last, rest)
  | '/' :: rest => (delimited '/' rest).map fun (pattern, behind) =>
      (.matched (Pattern.ofText false pattern), behind)
  | text =>
    let behind := text.dropWhile Char.isDigit
    match count? (text.takeWhile Char.isDigit), behind with
    | none, _ => some (.all, text)
    | some low, ',' :: '$' :: rest => some (.range low (low + rest.length + UInt32.size), rest)
    | some low, ',' :: rest => do
      let high ← count? (rest.takeWhile Char.isDigit)
      return (.range low (max low high), rest.dropWhile Char.isDigit)
    | some low, rest => some (.range low low, rest)

/-- What stands behind the choice of lines, as an action. -/
def editAction? (text : Text) : Option (EditAction × Text) :=
  match text with
  | 'p' :: rest => some (.print, rest)
  | 'd' :: rest => some (.delete, rest)
  | 'q' :: rest => some (.quit, rest)
  | 's' :: delimiter :: rest => do
    let (pattern, rest) ← delimited delimiter rest
    let (replacement, rest) ← delimited delimiter rest
    let flags := rest.takeWhile fun c => c = 'g' || c = 'p'
    return (.substitute (Pattern.ofText false pattern) (replacementOf replacement)
      (flags.contains 'g') (flags.contains 'p'), rest.drop flags.length)
  | _ => none

/-- At most `fuel` commands of a script. -/
def edits? : (fuel : Nat) → Text → Option (List Edit)
  | 0, _ => none
  | fuel + 1, text =>
    match text.dropWhile fun c => c = ';' || isBlank c with
    | [] => some []
    | text => do
      let (choice, rest) ← lineChoice? text
      let (action, rest) ← editAction? rest
      let rest := rest.dropWhile (· = ' ')
      if rest.head?.all fun c => c = ';' || c = '\n' then
        return ⟨choice, action⟩ :: (← edits? fuel rest)
      else none

/-- Bytes with what a pattern matches replaced, from their start on, and whether there
was something to replace. `atStart` says that the line starts here. A match of nothing
right behind another one does not count. -/
def substitutedFrom (pattern : Pattern) (replacement : Replacement) (everywhere : Bool) :
    (fuel : Nat) → (atStart afterMatch : Bool) → Bytes → Bytes × Bool
  | 0, _, _, bytes => (bytes, false)
  | fuel + 1, atStart, afterMatch, bytes =>
    let taken? := if pattern.atStart && !atStart then none
      else (takenHere? pattern.atEnd pattern.atoms bytes).filter fun taken =>
        0 < taken || !afterMatch
    match taken?, bytes with
    | some taken, _ =>
      let put := replacement.flatMap fun
        | some byte => [byte]
        | none => bytes.take taken
      if !everywhere then (put ++ bytes.drop taken, true)
      else if 0 < taken then
        (put ++ (substitutedFrom pattern replacement everywhere fuel false true
          (bytes.drop taken)).1, true)
      else
        match bytes with
        | [] => (put, true)
        | byte :: rest =>
          (put ++ byte :: (substitutedFrom pattern replacement everywhere fuel false false rest).1,
            true)
    | none, [] => ([], false)
    | none, byte :: rest =>
      let (behind, found) := substitutedFrom pattern replacement everywhere fuel false false rest
      (byte :: behind, found)

/-- A line with what a pattern matches replaced, and whether there was something to
replace. -/
def substitutedLine (pattern : Pattern) (replacement : Replacement) (everywhere : Bool)
    (line : Bytes) : Bytes × Bool :=
  substitutedFrom pattern replacement everywhere (line.length + 1) true false line

/-- What editing one line leads to: the lines printed on the way, the line itself unless
it is deleted, and whether the script ends with it. -/
structure EditedLine where
  printed : List Bytes
  line : Option Bytes
  quits : Bool

/-- Whether a choice takes a line. -/
def LineChoice.takes (choice : LineChoice) (number total : Nat) (line : Bytes) : Bool :=
  match choice with
  | .all => true
  | .range low high => low ≤ number && number ≤ high
  | .last => number = total
  | .matched pattern => pattern.matches line

/-- Carry out commands on a line. -/
def editLine (number total : Nat) : List Edit → Bytes → EditedLine
  | [], line => ⟨[], some line, false⟩
  | edit :: edits, line =>
    if !edit.choice.takes number total line then editLine number total edits line
    else match edit.action with
      | .print =>
        let edited := editLine number total edits line
        { edited with printed := line :: edited.printed }
      | .delete => ⟨[], none, false⟩
      | .quit => ⟨[], some line, true⟩
      | .substitute pattern replacement everywhere prints =>
        let (changed, found) := substitutedLine pattern replacement everywhere line
        let edited := editLine number total edits changed
        if found && prints then { edited with printed := changed :: edited.printed } else edited

/-- Carry out commands on lines that are numbered from `number` on. -/
def editLines (quiet : Bool) (edits : List Edit) (total : Nat) : Nat → List Bytes → List Bytes
  | _, [] => []
  | number, line :: lines =>
    let edited := editLine number total edits line
    let shown := edited.printed ++ (if quiet then [] else edited.line.toList)
    if edited.quits then shown else shown ++ editLines quiet edits total (number + 1) lines

/-- Edit lines: `sed`. The last line keeps its end as it is. -/
def edited : Program := fun setting stdin =>
  let (options, words) := splitOptions setting.args
  let flags := letters options
  match words with
  | [] => .complains
      (lineOf "Usage: sed [OPTION]... \x7bscript\x7d [input-file]...".toList) 1
  | script :: names =>
    match edits? (script.length + 1) script with
    | none => .complains (lineOf ("sed: -e expression #1, char 1: unknown command: `".toList ++
        script.take 1 ++ ['\''])) 1
    | some edits =>
      filter "sed" setting stdin names fun bytes =>
        let lines := byteLines bytes
        let shown := unlines (editLines (flags.contains 'n') edits lines.length 1 lines)
        (if bytes.isEmpty || bytes.getLast? == some 10 then shown else shown.dropLast, 0)

end Errand.Machine.Programs
