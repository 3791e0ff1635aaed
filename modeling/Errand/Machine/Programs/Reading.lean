/-
# Programs that pass on or cut what they read
-/
import Errand.Machine.Program

namespace Errand.Machine.Programs

open Program

/-- A stream as it is, in time. -/
def pass (stream : Stream) (complaints : Text) : Outcome where
  stdout := stream
  stderr := ⟨[(0, Utf8.encode complaints)], .closes 0⟩
  status := .exited (if complaints.isEmpty then 0 else 1)
  endsAt := stream.whole?.map (·.2)

/-- Lines with their numbers in front, from `number` on. -/
def numbered (number : Nat) : List Bytes → List Bytes
  | [] => []
  | line :: lines =>
    (Utf8.encode (Decimal.padLeft 6 ' ' (Decimal.ofNat number) ++ ['\t']) ++ line) ::
      numbered (number + 1) lines

/-- Operands one behind another: `cat`. -/
def concatenate : Program := fun setting stdin =>
  let (options, names) := splitOptions setting.args
  match (letters options).find? fun c => !(['u', 'n'].contains c) with
  | some letter => invalidOption "cat" letter
  | none =>
    if (letters options).contains 'n' then
      filter "cat" setting stdin names fun bytes => (unlines (numbered 1 (byteLines bytes)), 0)
    else
      let (stream, complaints) := operands "cat" setting stdin names
      pass stream complaints

/-- The standard input as it is: `tee`, where no file can be written. -/
def copy : Program := fun _ stdin => pass stdin []

/-- A length of text: so many lines or so many bytes. -/
inductive Measure where
  | lines (count : Nat)
  | bytes (count : Nat)
  deriving DecidableEq, Repr

/-- The first so many lines, each with its newline. -/
def takeLines : Nat → Bytes → Bytes → Bytes
  | 0, reversed, _ => reversed.reverse
  | _, reversed, [] => reversed.reverse
  | count + 1, reversed, byte :: rest =>
    takeLines (if byte = 10 then count else count + 1) (byte :: reversed) rest

/-- How many units of a measure some bytes hold. -/
def Measure.units : Measure → Bytes → Nat
  | .lines _, data => data.count 10
  | .bytes _, data => data.length

/-- The number of units asked for. -/
def Measure.count : Measure → Nat
  | .lines count => count
  | .bytes count => count

/-- The first units of some bytes. -/
def Measure.first : Measure → Bytes → Bytes
  | .lines count, data => takeLines count [] data
  | .bytes count, data => data.take count

/-- The last units of some bytes. -/
def Measure.last : Measure → Bytes → Bytes
  | .lines count, data =>
    let lines := byteLines data
    let kept := unlines (lines.drop (lines.length - count))
    if data.getLast? == some 10 then kept else kept.dropLast
  | .bytes count, data => data.drop (data.length - count)

/-- The moment at which the writes have brought so many units. -/
def Measure.moment? (measure : Measure) : Nat → List (Moment × Bytes) → Option Moment
  | 0, _ => some 0
  | _, [] => none
  | wanted, (moment, data) :: writes =>
    if wanted ≤ measure.units data then some moment
    else measure.moment? (wanted - measure.units data) writes

/-- The measure that the options of `head` and `tail` ask for, with the operands. A
count may stand in the same word as its letter, or alone behind a hyphen. -/
def measure? : List Text → Measure → Option (Measure × List Text)
  | [], measure => some (measure, [])
  | ['-', 'n'] :: count :: words, _ => do measure? words (.lines (← count? count))
  | ['-', 'c'] :: count :: words, _ => do measure? words (.bytes (← count? count))
  | ['-', '-'] :: words, measure => some (measure, words)
  | ('-' :: 'n' :: count) :: words, _ => do measure? words (.lines (← count? count))
  | ('-' :: 'c' :: count) :: words, _ => do measure? words (.bytes (← count? count))
  | ('-' :: c :: count) :: words, _ => do measure? words (.lines (← count? (c :: count)))
  | words, measure => some (measure, words)

/-- The first lines or bytes: `head`. It ends as soon as it has them. -/
def first : Program := fun setting stdin =>
  match measure? setting.args (.lines 10) with
  | none => usage "head" "invalid number of lines" 1
  | some (measure, names) =>
    let (stream, complaints) := operands "head" setting stdin names
    let stream := stream.cutAfter measure.count
    let moment := measure.moment? measure.count stream.writes <|> stream.whole?.map (·.2)
    match moment with
    | none => .stuck
    | some moment =>
      .finished moment (measure.first stream.written) (Utf8.encode complaints)
        (if complaints.isEmpty then 0 else 1)

/-- The last lines or bytes: `tail`. A plus sign counts from the start instead. -/
def last : Program := fun setting stdin =>
  match setting.args with
  | ['-', 'n'] :: ('+' :: start) :: names =>
    filter "tail" setting stdin names fun bytes =>
      (bytes.drop (takeLines ((count? start).getD 1 - 1) [] bytes).length, 0)
  | args =>
    match measure? args (.lines 10) with
    | none => usage "tail" "invalid number of lines" 1
    | some (measure, names) =>
      filter "tail" setting stdin names fun bytes => (measure.last bytes, 0)

/-- The lines in reverse: `tac`. -/
def reversed : Program := fun setting stdin =>
  filter "tac" setting stdin setting.args fun bytes => (unlines (byteLines bytes).reverse, 0)

/-- The lines with the bytes of each in reverse: `rev`. -/
def turned : Program := fun setting stdin =>
  filter "rev" setting stdin setting.args fun bytes =>
    let lines := unlines ((byteLines bytes).map List.reverse)
    (if bytes.isEmpty || bytes.getLast? == some 10 then lines else lines.dropLast, 0)

/-- The lines with numbers in front of those that are not empty: `nl`. -/
def counting : Program := fun setting stdin =>
  filter "nl" setting stdin setting.args fun bytes =>
    let place (done : Bytes × Nat) (line : Bytes) : Bytes × Nat :=
      if line.isEmpty then (done.1 ++ List.replicate 7 32 ++ [10], done.2)
      else (done.1 ++ unlines (numbered done.2 [line]), done.2 + 1)
    (((byteLines bytes).foldl place ([], 1)).1, 0)

/-- The number at the start of a line, where there is one. -/
def leadingNumber (line : Bytes) : Int :=
  let line := line.dropWhile fun byte => byte = 32 || byte = 9
  let value (digits : Bytes) : Int :=
    (digits.takeWhile fun byte => 48 ≤ byte && byte ≤ 57).foldl
      (fun value byte => value * 10 + (byte.toNat - 48 : Nat)) 0
  match line with
  | 45 :: digits => -(value digits)
  | digits => value digits

/-- Whether one run of bytes stands before another or is the same. -/
def bytesLe : Bytes → Bytes → Bool
  | [], _ => true
  | _ :: _, [] => false
  | first :: rest, other :: others =>
    if first = other then bytesLe rest others else first < other

/-- The lines without neighbours that repeat them. -/
def withoutRepeats : List Bytes → List Bytes
  | first :: second :: rest =>
    if first = second then withoutRepeats (second :: rest)
    else first :: withoutRepeats (second :: rest)
  | lines => lines

/-- The lines in order: `sort`, by bytes or by the number in front. -/
def ordered : Program := fun setting stdin =>
  let (options, names) := splitOptions setting.args
  let flags := letters options
  match flags.find? fun c => !(['r', 'n', 'u', 's'].contains c) with
  | some letter => .complains (lineOf ("sort: invalid option -- '" ++ letter.toString ++ "'").toList ++
      lineOf "Try 'sort --help' for more information.".toList) 2
  | none =>
    let ascending (left right : Bytes) : Bool :=
      if flags.contains 'n' && leadingNumber left != leadingNumber right then
        leadingNumber left < leadingNumber right
      else bytesLe left right
    let le (left right : Bytes) : Bool :=
      if flags.contains 'r' then ascending right left else ascending left right
    filter "sort" setting stdin names fun bytes =>
      let lines := (byteLines bytes).mergeSort le
      (unlines (if flags.contains 'u' then withoutRepeats lines else lines), 0)

/-- Runs of equal neighbours with their lengths. -/
def runs : List Bytes → List (Nat × Bytes)
  | [] => []
  | line :: lines =>
    match runs lines with
    | (count, other) :: rest =>
      if line = other then (count + 1, other) :: rest else (1, line) :: (count, other) :: rest
    | [] => [(1, line)]

/-- One line of each run of equal neighbours: `uniq`. -/
def distinct : Program := fun setting stdin =>
  let (options, names) := splitOptions setting.args
  let flags := letters options
  filter "uniq" setting stdin names fun bytes =>
    let kept := (runs (byteLines bytes)).filter fun (count, _) =>
      if flags.contains 'd' then 1 < count else if flags.contains 'u' then count = 1 else true
    (unlines (kept.map fun (count, line) =>
      if flags.contains 'c' then
        Utf8.encode (Decimal.padLeft 7 ' ' (Decimal.ofNat count) ++ [' ']) ++ line
      else line), 0)

/-- Whether a byte stands between words. -/
def isGapByte (byte : UInt8) : Bool := byte = 32 || (9 ≤ byte && byte ≤ 13)

/-- The number of words in some bytes. `inside` says that a word has begun. -/
def countWords (inside : Bool) (count : Nat) : Bytes → Nat
  | [] => count
  | byte :: rest =>
    if isGapByte byte then countWords false count rest
    else countWords true (if inside then count else count + 1) rest

/-- The counts that the letters of `wc` ask for, in the order in which they are
written. -/
def counts (flags : List Char) (bytes : Bytes) : List Nat :=
  let all := flags.isEmpty
  let lines := if all || flags.contains 'l' then [bytes.count 10] else []
  let words := if all || flags.contains 'w' then [countWords false 0 bytes] else []
  let chars := if flags.contains 'm' then [bytes.length] else []
  let sizes := if all || flags.contains 'c' then [bytes.length] else []
  lines ++ words ++ chars ++ sizes

/-- Counts of lines, words and bytes: `wc`. -/
def measured : Program := fun setting stdin =>
  let (options, names) := splitOptions setting.args
  let flags := letters options
  match flags.find? fun c => !(['l', 'w', 'm', 'c'].contains c) with
  | some letter => invalidOption "wc" letter
  | none =>
    filter "wc" setting stdin names fun bytes =>
      let found := counts flags bytes
      let width := if found.length = 1 then 1 else if names.isEmpty then 7
        else (Decimal.ofNat bytes.length).length
      let columns := found.map fun count => Decimal.padLeft width ' ' (Decimal.ofNat count)
      let label := match names with
        | [] => []
        | name :: _ => ' ' :: name
      (Utf8.encode (lineOf (Text.join [' '] columns ++ label)), 0)

/-- The numbers that a list such as `1,3-5` holds, as ranges with an optional end. -/
def ranges? (list : Text) : Option (List (Nat × Option Nat)) :=
  (list.cutAll ',').mapM fun part =>
    match part.cut? '-' with
    | none => (count? part).map fun n => (n, some n)
    | some ([], high) => (count? high).map fun n => (1, some n)
    | some (low, []) => (count? low).map fun n => (n, none)
    | some (low, high) => do return (← count? low, some (← count? high))

/-- The members of a list whose numbers, from 1 on, are in one of the ranges. -/
def selected {α : Type} (chosen : List (Nat × Option Nat)) (members : List α) : List α :=
  (members.zipIdx 1).filterMap fun (member, number) =>
    if chosen.any fun (low, high) => low ≤ number && high.all (number ≤ ·) then some member
    else none

/-- The parts of some bytes between a separator. -/
def fieldsOf (separator : UInt8) : Bytes → List Bytes
  | [] => [[]]
  | byte :: rest =>
    if byte = separator then [] :: fieldsOf separator rest
    else match fieldsOf separator rest with
      | part :: parts => (byte :: part) :: parts
      | [] => [[byte]]

/-- How `cut` divides a line. -/
structure Division where
  separator : UInt8
  fields : Option (List (Nat × Option Nat))
  bytes : Option (List (Nat × Option Nat))

/-- The division that the options of `cut` ask for, with the operands. -/
def division? : List Text → Division → Option (Division × List Text)
  | [], division => some (division, [])
  | ['-', 'd'] :: [c] :: words, division =>
    division? words { division with separator := c.toNat.toUInt8 }
  | ['-', 'f'] :: list :: words, division => do
    division? words { division with fields := some (← ranges? list) }
  | ['-', 'd', c] :: words, division =>
    division? words { division with separator := c.toNat.toUInt8 }
  | ('-' :: 'f' :: list) :: words, division => do
    division? words { division with fields := some (← ranges? list) }
  | ['-', 'c'] :: list :: words, division => do
    division? words { division with bytes := some (← ranges? list) }
  | ['-', 'b'] :: list :: words, division => do
    division? words { division with bytes := some (← ranges? list) }
  | ('-' :: 'c' :: list) :: words, division => do
    division? words { division with bytes := some (← ranges? list) }
  | ('-' :: 'b' :: list) :: words, division => do
    division? words { division with bytes := some (← ranges? list) }
  | words, division => some (division, words)

/-- One line, divided. A line without the separator stays whole. -/
def Division.line (division : Division) (line : Bytes) : Bytes :=
  match division.bytes, division.fields with
  | some chosen, _ => selected chosen line
  | none, some chosen =>
    if line.contains division.separator then
      List.intercalate [division.separator] (selected chosen (fieldsOf division.separator line))
    else line
  | none, none => line

/-- Parts of each line: `cut`. -/
def divided : Program := fun setting stdin =>
  match division? setting.args ⟨9, none, none⟩ with
  | none => usage "cut" "invalid field value" 1
  | some (division, names) =>
    if division.fields.isNone && division.bytes.isNone then
      usage "cut" "you must specify a list of bytes, characters, or fields" 1
    else filter "cut" setting stdin names fun bytes =>
      (unlines ((byteLines bytes).map division.line), 0)

end Errand.Machine.Programs
