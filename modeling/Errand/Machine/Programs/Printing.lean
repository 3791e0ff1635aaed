/-
# Programs that print their words
-/
import Errand.Machine.Program

namespace Errand.Machine.Programs

open Program

/-- Where a backslash in printed text gets its rules from. -/
inductive EscapeRule where
  /-- Words of the echoing program: octal digits stand behind a zero or alone. -/
  | words
  /-- Words of the echoing builtin of the script language: octal digits stand behind a
  zero. -/
  | scriptWords
  /-- The format of the formatting program: up to three octal digits. -/
  | format
  deriving DecidableEq, Repr

/-- The characters that a letter behind a backslash stands for. -/
def namedEscape? (rule : EscapeRule) : Char → Option UInt8
  | 'a' => some 7
  | 'b' => some 8
  | 'e' => if rule = .scriptWords then none else some 27
  | 'f' => some 12
  | 'n' => some 10
  | 'r' => some 13
  | 't' => some 9
  | 'v' => some 11
  | '\\' => some 92
  | '"' => if rule = .format then some 34 else none
  | _ => none

/-- The value of a hexadecimal digit. -/
def hexDigit? (c : Char) : Option Nat :=
  if c.isDigit then some (c.toNat - '0'.toNat)
  else if 'a' ≤ c ∧ c ≤ 'f' then some (c.toNat - 'a'.toNat + 10)
  else if 'A' ≤ c ∧ c ≤ 'F' then some (c.toNat - 'A'.toNat + 10)
  else none

/-- At most `limit` digits of a base, as a byte, with what follows them. -/
def digitsByte (base limit : Nat) (digit? : Char → Option Nat) (text : Text) : UInt8 × Text :=
  let digits := (text.take limit).takeWhile fun c => (digit? c).any (· < base)
  ((digits.foldl (fun value c => value * base + (digit? c).getD 0) 0).toUInt8,
    text.drop digits.length)

/-- What an escape sequence prints. -/
inductive Escape where
  | byte (byte : UInt8)
  /-- The backslash and what follows it stay as they are. -/
  | plain
  /-- Nothing more is printed at all. -/
  | stop
  deriving DecidableEq, Repr

/-- The escape sequence behind a backslash, with what follows it. -/
def escape (rule : EscapeRule) : Text → Escape × Text
  | [] => (.plain, [])
  | 'c' :: rest => (if rule = .format then .plain else .stop, if rule = .format then 'c' :: rest else rest)
  | 'x' :: c :: rest =>
    if rule ≠ .scriptWords && (hexDigit? c).isSome then
      let (value, behind) := digitsByte 16 2 hexDigit? (c :: rest)
      (.byte value, behind)
    else (.plain, 'x' :: c :: rest)
  | c :: rest =>
    match namedEscape? rule c with
    | some value => (.byte value, rest)
    | none =>
      let isOctal := (hexDigit? c).any (· < 8)
      if c = '0' && rule ≠ .format then
        let (value, behind) := digitsByte 8 3 hexDigit? rest
        (.byte value, behind)
      else if isOctal && rule ≠ .scriptWords then
        let (value, behind) := digitsByte 8 3 hexDigit? (c :: rest)
        (.byte value, behind)
      else (.plain, c :: rest)

/-- At most `fuel` characters of a text with its escape sequences carried out, and
whether printing goes on behind it. -/
def unescapeFrom (rule : EscapeRule) : (fuel : Nat) → Text → Bytes × Bool
  | 0, _ => ([], true)
  | _, [] => ([], true)
  | fuel + 1, '\\' :: rest =>
    match escape rule rest with
    | (.stop, _) => ([], false)
    | (.byte value, behind) =>
      let (bytes, goesOn) := unescapeFrom rule fuel behind
      (value :: bytes, goesOn)
    | (.plain, []) => ([92], true)
    | (.plain, c :: behind) =>
      let (bytes, goesOn) := unescapeFrom rule fuel behind
      (92 :: Utf8.encode [c] ++ bytes, goesOn)
  | fuel + 1, c :: rest =>
    let (bytes, goesOn) := unescapeFrom rule fuel rest
    (Utf8.encode [c] ++ bytes, goesOn)

/-- A text with its escape sequences carried out. -/
def unescape (rule : EscapeRule) (text : Text) : Bytes × Bool :=
  unescapeFrom rule text.length text

/-- The words joined by blanks, with or without escapes and a newline at the end. -/
def echoed (rule : Option EscapeRule) (newline : Bool) (words : List Text) : Bytes :=
  let text := Text.join [' '] words
  let (bytes, goesOn) := match rule with
    | none => (Utf8.encode text, true)
    | some rule => unescape rule text
  if newline && goesOn then bytes ++ [10] else bytes

/-- Whether a word is made of the letters of `echo` behind a hyphen. -/
def isEchoOption : Text → Bool
  | '-' :: c :: flags => (c :: flags).all fun flag => ['n', 'e', 'E'].contains flag
  | _ => false

/-- Print the words: `echo`. -/
def echo : Program := fun setting _ =>
  let flags := letters (setting.args.takeWhile isEchoOption)
  let words := setting.args.dropWhile isEchoOption
  let escapes := (flags.filter (· ≠ 'n')).getLast? == some 'e'
  .finished 0 (echoed (if escapes then some .words else none) (!flags.contains 'n') words) [] 0

/-- The builtin of the script language that prints its words. -/
def scriptEcho (words : List Text) : Bytes :=
  match words with
  | ['-', 'n'] :: words => echoed (some .scriptWords) false words
  | words => echoed (some .scriptWords) true words

/-- A part of a format: bytes, or a place for a word. -/
inductive FormatPart where
  | bytes (bytes : Bytes)
  | place (flags : List Char) (width : Nat) (precision : Option Nat) (conversion : Char)
  deriving DecidableEq, Repr

/-- Whether a character is a flag of a place. -/
def isFlag (c : Char) : Bool := ['-', '0', '+', ' ', '#'].contains c

/-- The place behind a percent sign, with what follows it. -/
def formatPlace (text : Text) : FormatPart × Text :=
  let flags := text.takeWhile isFlag
  let behindFlags := text.dropWhile isFlag
  let width := behindFlags.takeWhile Char.isDigit
  let behindWidth := behindFlags.dropWhile Char.isDigit
  let widthValue := (Decimal.digits? width).getD 0
  let (precision, behind) := match behindWidth with
    | '.' :: rest =>
      (some ((Decimal.digits? (rest.takeWhile Char.isDigit)).getD 0), rest.dropWhile Char.isDigit)
    | rest => (none, rest)
  match behind with
  | [] => (.bytes [37], [])
  | '%' :: rest => (.bytes [37], rest)
  | conversion :: rest => (.place flags widthValue precision conversion, rest)

/-- At most `fuel` parts of a format. -/
def formatParts : (fuel : Nat) → Text → List FormatPart
  | 0, _ => []
  | _, [] => []
  | fuel + 1, '%' :: rest =>
    let (part, behind) := formatPlace rest
    part :: formatParts fuel behind
  | fuel + 1, '\\' :: rest =>
    match escape .format rest with
    | (.byte value, behind) => .bytes [value] :: formatParts fuel behind
    | (_, c :: behind) => .bytes (92 :: Utf8.encode [c]) :: formatParts fuel behind
    | (_, []) => [.bytes [92]]
  | fuel + 1, c :: rest => .bytes (Utf8.encode [c]) :: formatParts fuel rest

/-- The number that a word writes for a place, and whether it really writes one. -/
def formatNumber (word : Text) : Int × Bool :=
  match word with
  | [] => (0, true)
  | ['\'', c] => (c.toNat, true)
  | '0' :: 'x' :: digits =>
    if digits.all fun c => (hexDigit? c).isSome then
      (digits.foldl (fun value c => value * 16 + (hexDigit? c).getD 0) 0, true)
    else (0, false)
  | word =>
    match integer? word.trimStart with
    | some value => (value, true)
    | none => (0, false)

/-- Bytes padded to the width of a place. -/
def padded (flags : List Char) (width : Nat) (bytes : Bytes) : Bytes :=
  let padding := List.replicate (width - bytes.length) 32
  if flags.contains '-' then bytes ++ padding else padding ++ bytes

/-- A number in the way of a place. -/
def paddedNumber (flags : List Char) (width : Nat) (precision : Option Nat) (negative : Bool)
    (digits : Text) : Bytes :=
  let digits := Decimal.padLeft (precision.getD 1) '0' digits
  let sign := if negative then ['-'] else if flags.contains '+' then ['+']
    else if flags.contains ' ' then [' '] else []
  if flags.contains '0' && !flags.contains '-' && precision.isNone then
    Utf8.encode (sign ++ Decimal.padLeft (width - sign.length) '0' digits)
  else padded flags width (Utf8.encode (sign ++ digits))

/-- What one round through a format gives. -/
structure FormatRound where
  printed : Bytes
  complaints : Text
  rest : List Text
  goesOn : Bool

/-- What a word looks like in a place, with a complaint if it does not suit. -/
def formatWord (flags : List Char) (width : Nat) (precision : Option Nat) (conversion : Char)
    (word : Text) : Bytes × Text × Bool :=
  let (number, isNumber) := formatNumber word
  let complaint := if isNumber then []
    else lineOf ("printf: '".toList ++ word ++ "': expected a numeric value".toList)
  let cut (bytes : Bytes) : Bytes := match precision with
    | none => bytes
    | some limit => bytes.take limit
  let inBase (base : Nat) : Bytes × Text × Bool :=
    (paddedNumber (flags.filter fun c => c ≠ '+' && c ≠ ' ') width precision false
      (Nat.toDigits base (number % UInt64.size).toNat), complaint, true)
  match conversion with
  | 's' => (padded flags width (cut (Utf8.encode word)), [], true)
  | 'c' => (padded flags width ((Utf8.encode word).take 1), [], true)
  | 'b' =>
    let (bytes, goesOn) := unescape .words word
    (padded flags width (cut bytes), [], goesOn)
  | 'x' => inBase 16
  | 'X' =>
    let (bytes, complaint, goesOn) := inBase 16
    (bytes.map fun byte => if 97 ≤ byte && byte ≤ 102 then byte - 32 else byte, complaint, goesOn)
  | 'o' => inBase 8
  | 'u' => inBase 10
  | _ => (paddedNumber flags width precision (number < 0) (Decimal.ofNat number.natAbs),
      complaint, true)

/-- One round through the parts of a format. A place without a word takes the empty
one. -/
def formatRound : List FormatPart → List Text → FormatRound
  | [], words => ⟨[], [], words, true⟩
  | .bytes bytes :: parts, words =>
    let round := formatRound parts words
    { round with printed := bytes ++ round.printed }
  | .place flags width precision conversion :: parts, words =>
    let (bytes, complaint, goesOn) :=
      formatWord flags width precision conversion (words.headD [])
    if goesOn then
      let round := formatRound parts words.tail
      { round with printed := bytes ++ round.printed, complaints := complaint ++ round.complaints }
    else ⟨bytes, complaint, [], false⟩

/-- Rounds through a format until all words are used, at most `fuel` of them. -/
def formatRounds (parts : List FormatPart) : (fuel : Nat) → List Text → Bytes × Text
  | 0, _ => ([], [])
  | fuel + 1, words =>
    let round := formatRound parts words
    if round.goesOn && !round.rest.isEmpty && round.rest.length < words.length then
      let (printed, complaints) := formatRounds parts fuel round.rest
      (round.printed ++ printed, round.complaints ++ complaints)
    else (round.printed, round.complaints)

/-- What formatting words gives, and its complaints. -/
def formatted (format : Text) (words : List Text) : Bytes × Text :=
  formatRounds (formatParts format.length format) (words.length + 1) words

/-- Print the words in a format: `printf`. -/
def formatter : Program := fun setting _ =>
  match if setting.args.head? = some ['-', '-'] then setting.args.tail else setting.args with
  | [] => missingOperand "printf"
  | format :: words =>
    let (printed, complaints) := formatted format words
    .finished 0 printed (Utf8.encode complaints) (if complaints.isEmpty then 0 else 1)

/-- The numbers from one to another, at most `fuel` of them. -/
def numbers (step high : Int) : (fuel : Nat) → Int → List Int
  | 0, _ => []
  | fuel + 1, low =>
    if (0 < step && high < low) || (step < 0 && low < high) || step = 0 then []
    else low :: numbers step high fuel (low + step)

/-- Count: `seq`. -/
def counted : Program := fun setting _ =>
  let print (low step high : Int) : Outcome :=
    .prints ((numbers step high ((high - low).natAbs + 1) low).flatMap fun n =>
      lineOf (Decimal.ofInt n))
  match setting.args with
  | [] => missingOperand "seq"
  | words =>
    match words.mapM integer? with
    | some [high] => print 1 1 high
    | some [low, high] => print low 1 high
    | some [low, step, high] => print low step high
    | some _ => usage "seq" "extra operand" 1
    | none =>
      let odd := (words.find? fun word => (integer? word).isNone).getD []
      .complains (lineOf ("seq: invalid floating point argument: '".toList ++ odd ++ ['\'']) ++
        lineOf "Try 'seq --help' for more information.".toList) 1

/-- Print a line again and again: `yes`. -/
def repeated : Program := fun setting _ =>
  let line := if setting.args.isEmpty then ['y'] else Text.join [' '] setting.args
  ⟨⟨[], .repeats (Utf8.encode (lineOf line))⟩, .empty, .exited 0, none⟩

/-- Print variables: `printenv`. -/
def printVariables : Program := fun setting _ =>
  match setting.args with
  | [] =>
    .prints (setting.env.flatMap fun (name, value) => lineOf (name ++ '=' :: value))
  | names =>
    let found := names.filterMap fun name =>
      if name.contains '=' then none else setting.env.get? name
    .finished 0 (Utf8.encode (found.flatMap lineOf)) []
      (if found.length = names.length then 0 else 1)

end Errand.Machine.Programs
