/-
# Programs

A program is a function of what its process is started with and of what it reads.
-/
import Errand.Machine.Files
import Errand.Text.Decimal

namespace Errand.Machine

/-- What a process is started with. -/
structure Setting where
  files : Files
  /-- The words behind the name of the program. -/
  args : List Text
  env : Environment
  /-- The working directory. -/
  place : Place

/-- What a program does with what it reads. -/
abbrev Program := Setting → Stream → Outcome

namespace Program

/-- The wording of a fault, without its number. -/
def faultText : OsFault → String
  | .notFound => "No such file or directory"
  | .argumentsTooLong => "Argument list too long"
  | .permissionDenied => "Permission denied"
  | .notDirectory => "Not a directory"
  | .isDirectory => "Is a directory"
  | .nameTooLong => "File name too long"
  | .tooManyLinks => "Too many levels of symbolic links"
  | .networkUnreachable => "Network is unreachable"
  | .nulByte => "Invalid argument"
  | .notUtf8 => "Invalid argument"

/-- A line of text. -/
def lineOf (text : Text) : Text := text ++ ['\n']

/-- A complaint that ends with a hint to ask the program for help. -/
def usage (name complaint : String) (code : Int) : Outcome :=
  .complains (lineOf (name ++ ": " ++ complaint).toList ++
    lineOf ("Try '" ++ name ++ " --help' for more information.").toList) code

/-- A complaint about a missing word. -/
def missingOperand (name : String) : Outcome := usage name "missing operand" 1

/-- A complaint about an option that a program does not have. -/
def invalidOption (name : String) (letter : Char) : Outcome :=
  usage name ("invalid option -- '" ++ letter.toString ++ "'") 1

/-- A name as complaints show it: in quotes if a shell would not read it as one plain
word. -/
def shownName (name : Text) : Text :=
  if !name.isEmpty && name.all (fun c => c.isAlphanum || "-_./,+:@%=".toList.contains c) then name
  else ['\''] ++ name ++ ['\'']

/-- The complaint about a file that cannot be read. -/
def cannotRead (name : String) (lead file : Text) (fault : OsFault) : Text :=
  lineOf (name.toList ++ ": ".toList ++ lead ++ file ++ ": ".toList ++ (faultText fault).toList)

/-- The stream that a file operand stands for: a lone hyphen is the standard input. -/
def operand (setting : Setting) (stdin : Stream) (name : Text) : Except OsFault Stream :=
  if name = ['-'] then .ok stdin else setting.files.read setting.place name

/-- The streams of operands one behind another, with a complaint for each that cannot
be read. Without operands the standard input is read. -/
def operands (name : String) (setting : Setting) (stdin : Stream) (names : List Text) :
    Stream × Text :=
  let read := (if names.isEmpty then [['-']] else names).map fun operandName =>
    match operand setting stdin operandName with
    | .ok stream => (stream, [])
    | .error fault => (Stream.empty, cannotRead name [] (shownName operandName) fault)
  (read.foldl (fun before (stream, _) => before.append stream) .empty, read.flatMap (·.2))

/-- A process that reads its operands to their end and then answers. It fails if one of
them cannot be read. -/
def filter (name : String) (setting : Setting) (stdin : Stream) (names : List Text)
    (answer : Bytes → Bytes × Int) : Outcome :=
  let (stream, complaints) := operands name setting stdin names
  match stream.whole? with
  | none => .stuck
  | some (bytes, moment) =>
    let (stdout, code) := answer bytes
    .finished moment stdout (Utf8.encode complaints) (if complaints.isEmpty then code else 1)

/-- The words split into options and the rest. Options stand in front and begin with a
hyphen that is not alone; two hyphens end them. -/
def splitOptions : List Text → List Text × List Text
  | [] => ([], [])
  | ['-', '-'] :: words => ([], words)
  | ('-' :: c :: letters) :: words =>
    let (options, rest) := splitOptions words
    (('-' :: c :: letters) :: options, rest)
  | words => ([], words)

/-- The letters of options that take no value. -/
def letters (options : List Text) : Text := options.flatMap (·.drop 1)

/-- Lines of bytes, held last first, in front of the bytes of an unfinished line. -/
def collectLines : List Bytes → Bytes → Bytes → List Bytes
  | lines, [], [] => lines.reverse
  | lines, reversed, [] => (reversed.reverse :: lines).reverse
  | lines, reversed, byte :: rest =>
    if byte = 10 then collectLines (reversed.reverse :: lines) [] rest
    else collectLines lines (byte :: reversed) rest

/-- The lines of some bytes, without their newlines. -/
def byteLines (bytes : Bytes) : List Bytes := collectLines [] [] bytes

/-- Lines written out, each with a newline. -/
def unlines (lines : List Bytes) : Bytes := lines.flatMap (· ++ [10])

/-- A number, written with digits alone. -/
def count? (text : Text) : Option Nat := Decimal.digits? text

/-- A number that may be negative. -/
def integer? : Text → Option Int
  | '-' :: digits => (Decimal.digits? digits).map fun n => -(Int.ofNat n)
  | '+' :: digits => (Decimal.digits? digits).map Int.ofNat
  | digits => (Decimal.digits? digits).map Int.ofNat

end Program

end Errand.Machine
