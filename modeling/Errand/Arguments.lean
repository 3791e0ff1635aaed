/-
# Command-line arguments

Options stand before the command: short ones after one hyphen, several in one word if
they take no value, and long ones after two. A value follows its option in the same
word or is the next word, whatever that looks like. From the first word on that is no
option, everything belongs to the command.
-/
import Errand.Config.Load
import Errand.Text.Quoted

namespace Errand

/-- What the command line says. -/
structure Arguments where
  host : Option Text
  user : Option Text
  port : Option UInt16
  timeoutSecs : Option UInt64
  /-- The path of the configuration file. -/
  config : Option Text
  logLevel : Option Text
  /-- Whether every word of the command is one line of a list. -/
  many : Bool
  commands : List Text
  version : Bool
  help : Bool
  deriving DecidableEq, Repr

namespace Arguments

/-- Why a command line cannot be read. -/
inductive Fault where
  | missingValue (option : Text)
  | invalidOption (option : Text)
  /-- A value for an option that takes none. -/
  | unexpectedValue (option : Text) (value : List UInt8)
  | notText (argument : List UInt8)
  | invalidValue (name : String) (value : Text)
  /-- A word of the command behind the first that is not text. -/
  | commandNotText (argument : List UInt8)
  | missingCommand
  deriving DecidableEq, Repr

/-- The wording of a fault. -/
def Fault.message : Fault → Text
  | .missingValue option => "missing argument for option '".toList ++ option ++ ['\'']
  | .invalidOption option => "invalid option '".toList ++ option ++ ['\'']
  | .unexpectedValue option value =>
    "unexpected argument for option '".toList ++ option ++ "': ".toList ++ Quoted.bytes value
  | .notText argument => "argument is invalid unicode: ".toList ++ Quoted.bytes argument
  | .invalidValue name value =>
    ("invalid value for --" ++ name ++ ": '").toList ++ value ++ ['\'']
  | .commandNotText argument =>
    "argument is not valid unicode: ".toList ++ Quoted.bytes argument
  | .missingCommand => "no command given".toList

/-- Nothing said. -/
def empty : Arguments := ⟨none, none, none, none, none, none, false, [], false, false⟩

/-- The options without a value. -/
inductive Flag where
  | help
  | version
  | many
  deriving DecidableEq, Repr

/-- The options with a value. -/
inductive Setting where
  | host
  | user
  | port
  | timeout
  | config
  | logLevel
  deriving DecidableEq, Repr

/-- The options. -/
inductive OptionKind where
  | flag (flag : Flag)
  | setting (setting : Setting)
  deriving DecidableEq, Repr

/-- The option with a short name. -/
def OptionKind.ofShort? : Char → Option OptionKind
  | 'h' => some (.flag .help)
  | 'V' => some (.flag .version)
  | 'm' => some (.flag .many)
  | 'H' => some (.setting .host)
  | 'u' => some (.setting .user)
  | 'p' => some (.setting .port)
  | 't' => some (.setting .timeout)
  | 'c' => some (.setting .config)
  | 'l' => some (.setting .logLevel)
  | _ => none

/-- The long names. -/
def OptionKind.longNames : List (Text × OptionKind) :=
  [("help".toList, .flag .help), ("version".toList, .flag .version),
   ("many".toList, .flag .many), ("host".toList, .setting .host),
   ("user".toList, .setting .user), ("port".toList, .setting .port),
   ("timeout".toList, .setting .timeout), ("config".toList, .setting .config),
   ("log-level".toList, .setting .logLevel)]

/-- The option with a long name. -/
def OptionKind.ofLong? (name : Text) : Option OptionKind := List.lookup name longNames

/-- The arguments with a flag set. -/
def raise (flag : Flag) (arguments : Arguments) : Arguments :=
  match flag with
  | .help => { arguments with help := true }
  | .version => { arguments with version := true }
  | .many => { arguments with many := true }

/-- A number that the value of an option writes. -/
def readNumber (name : String) (bound : Nat) (value : Text) : Except Fault Nat :=
  match Decimal.unsigned? bound value with
  | some number => .ok number
  | none => .error (.invalidValue name value)

/-- The arguments with a value set, which replaces an earlier one. -/
def assign (setting : Setting) (value : List UInt8) (arguments : Arguments) :
    Except Fault Arguments :=
  match Utf8.decode? value with
  | none => .error (.notText value)
  | some text =>
    match setting with
    | .host => .ok { arguments with host := some text }
    | .user => .ok { arguments with user := some text }
    | .config => .ok { arguments with config := some text }
    | .logLevel => .ok { arguments with logLevel := some text }
    | .port => (readNumber "port" UInt16.size text).map fun number =>
      { arguments with port := some (UInt16.ofNat number) }
    | .timeout => (readNumber "timeout" UInt64.size text).map fun number =>
      { arguments with timeoutSecs := some (UInt64.ofNat number) }

/-- The bytes behind an equals sign, if one comes first. -/
def withoutEquals : List Utf8.Piece → List UInt8
  | .char '=' :: pieces => pieces.flatMap Utf8.Piece.bytes
  | pieces => pieces.flatMap Utf8.Piece.bytes

/-- A short option by its character. -/
def shortText (c : Char) : Text := ['-', c]

/-- The options of a word behind its hyphen. `previous` is the option before. A setting
that ends the word asks for the next one. -/
def readCluster (previous : Option Char) :
    List Utf8.Piece → Arguments → Except Fault (Arguments × Option (Setting × Text))
  | [], arguments => .ok (arguments, none)
  | .stray _ :: _, _ => .error (.invalidOption (shortText Utf8.replacement))
  | .char c :: pieces, arguments =>
    match previous, c with
    | some option, '=' =>
      .error (.unexpectedValue (shortText option) (pieces.flatMap Utf8.Piece.bytes))
    | _, _ =>
      match OptionKind.ofShort? c with
      | none => .error (.invalidOption (shortText c))
      | some (.flag flag) => readCluster (some c) pieces (arguments.raise flag)
      | some (.setting setting) =>
        if pieces.isEmpty then .ok (arguments, some (setting, shortText c))
        else (arguments.assign setting (withoutEquals pieces)).map fun after => (after, none)

/-- The bytes of a word before and behind the first equals sign, which is byte 61. -/
def cutEquals : List UInt8 → List UInt8 × Option (List UInt8)
  | [] => ([], none)
  | byte :: bytes =>
    if byte = 61 then ([], some bytes)
    else
      let (before, behind) := cutEquals bytes
      (byte :: before, behind)

/-- The long option of a word behind its hyphens. A setting without a value in the word
asks for the next one. -/
def readLong (word : List UInt8) (arguments : Arguments) :
    Except Fault (Arguments × Option (Setting × Text)) :=
  let (nameBytes, value) := cutEquals word
  let name := Utf8.replace nameBytes
  let shown := '-' :: '-' :: name
  match OptionKind.ofLong? name with
  | none => .error (.invalidOption shown)
  | some (.flag flag) =>
    match value with
    | none => .ok (arguments.raise flag, none)
    | some bytes => .error (.unexpectedValue shown bytes)
  | some (.setting setting) =>
    match value with
    | none => .ok (arguments, some (setting, shown))
    | some bytes => (arguments.assign setting bytes).map fun after => (after, none)

/-- The arguments with the words of the command. -/
def readCommand (words : List (List UInt8)) (arguments : Arguments) : Except Fault Arguments :=
  match words with
  | [] => .ok arguments
  | first :: rest =>
    match Utf8.decode? first with
    | none => .error (.notText first)
    | some command => do
      let commands ← rest.mapM fun word =>
        match Utf8.decode? word with
        | some text => .ok text
        | none => .error (.commandNotText word)
      return { arguments with commands := command :: commands }

/-- Whether a word is one hyphen-led thing, and which: byte 45 is the hyphen. -/
inductive WordKind where
  | endOfOptions
  | long (rest : List UInt8)
  | cluster (rest : List UInt8)
  | plain
  deriving DecidableEq, Repr

/-- The kind of a word. A lone hyphen is a plain word. -/
def WordKind.of : List UInt8 → WordKind
  | [45, 45] => .endOfOptions
  | 45 :: 45 :: rest => .long rest
  | 45 :: byte :: rest => .cluster (byte :: rest)
  | _ => .plain

/-- The arguments that the words still to come add. -/
def readFrom : List (List UInt8) → Arguments → Except Fault Arguments
  | [], arguments => .ok arguments
  | word :: words, arguments =>
    match WordKind.of word with
    | .endOfOptions => readCommand words arguments
    | .plain => readCommand (word :: words) arguments
    | .long rest => do
      match ← readLong rest arguments with
      | (arguments, none) => readFrom words arguments
      | (arguments, some (setting, shown)) =>
        match words with
        | [] => throw (.missingValue shown)
        | value :: words => readFrom words (← arguments.assign setting value)
    | .cluster rest => do
      match ← readCluster none (Utf8.pieces rest) arguments with
      | (arguments, none) => readFrom words arguments
      | (arguments, some (setting, shown)) =>
        match words with
        | [] => throw (.missingValue shown)
        | value :: words => readFrom words (← arguments.assign setting value)

/-- What the words behind the program's name say. A command may only be missing where help
or the version is asked for. -/
def read (words : List (List UInt8)) : Except Fault Arguments := do
  let arguments ← readFrom words empty
  if arguments.commands.isEmpty && !arguments.help && !arguments.version then
    throw .missingCommand
  return arguments

/-- The values that lie over a configuration. -/
def overrides (arguments : Arguments) : Config.Overrides :=
  ⟨arguments.host, arguments.user, arguments.port, arguments.timeoutSecs, arguments.logLevel⟩

end Arguments

end Errand
