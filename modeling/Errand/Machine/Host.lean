/-
# The machine as a host of processes

Programs are looked up and started as the system does it: no text may hold a NUL, the
directory must exist, and a name without a slash is searched in the `PATH` of the new
process. Time is virtual: a process that sleeps takes no time of ours.
-/
import Errand.Local.Process
import Errand.Machine.Programs.Editing
import Errand.Machine.Programs.Listing
import Errand.Machine.Script

namespace Errand.Machine

open Program Programs

/-- The programs that start no other program. -/
def plainPrograms : List (String × Program) :=
  [("echo", echo), ("printf", formatter), ("cat", concatenate), ("tee", copy), ("tr", replaced),
   ("sort", ordered), ("uniq", distinct), ("wc", measured), ("head", first), ("tail", last),
   ("tac", reversed), ("rev", turned), ("nl", counting), ("cut", divided), ("sed", edited),
   ("grep", matching), ("seq", counted), ("yes", repeated), ("printenv", printVariables),
   ("pwd", directory), ("ls", listing), ("basename", baseName), ("dirname", directoryName),
   ("uname", systemName), ("whoami", accountName), ("expr", calculated), ("test", tested),
   ("[", bracketed), ("sleep", waiting), ("true", ending 0), ("false", ending 1)]

/-- The words of `env` in front of its command: the environment they make. -/
def alteredEnvironment : List Text → Environment → Environment × List Text
  | [], env => (env, [])
  | ['-', 'i'] :: words, _ => alteredEnvironment words []
  | ['-'] :: words, _ => alteredEnvironment words []
  | ['-', 'u'] :: name :: words, env => alteredEnvironment words (env.unset name)
  | word :: words, env =>
    match word.cut? '=' with
    | some (name, value) => alteredEnvironment words (env.set name value)
    | none => (env, word :: words)

/-- Run a program in another environment: `env`. -/
def inEnvironment (launcher : Script.Launcher) : Program := fun setting stdin =>
  let (env, words) := alteredEnvironment setting.args setting.env
  match words with
  | [] => .prints (env.flatMap fun (name, value) => lineOf (name ++ '=' :: value))
  | name :: args =>
    match launcher name with
    | some program => program { setting with args := args, env := env } stdin
    | none =>
      .complains (lineOf ("env: '".toList ++ name ++ "': No such file or directory".toList)) 127

/-- Run a program with the words that are read behind its own: `xargs`. -/
def withReadWords (launcher : Script.Launcher) : Program := fun setting stdin =>
  match stdin.whole? with
  | none => .stuck
  | some (bytes, moment) =>
    let read := ((Utf8.decode bytes).splitBy fun a b => isBlank a == isBlank b).filter fun part =>
      part.all fun c => !isBlank c
    let (name, args) := match setting.args with
      | [] => ("echo".toList, [])
      | name :: args => (name, args)
    match launcher name with
    | some program =>
      let outcome := (program { setting with args := args ++ read } .empty).delayed moment
      { outcome with status := if outcome.status.code = 0 then .exited 0 else .exited 123 }
    | none =>
      .complains (lineOf ("xargs: ".toList ++ name ++ ": No such file or directory".toList)) 127

/-- The names of the shell. -/
def shellNames : List String := ["sh", "dash", "bash"]

/-- A program by name. Programs start others at most `depth` deep. -/
def program? : (depth : Nat) → Script.Launcher
  | 0, _ => none
  | depth + 1, name =>
    if shellNames.any (·.toList = name) then some (Script.interpreter (program? depth))
    else if name = "env".toList then some (inEnvironment (program? depth))
    else if name = "xargs".toList then some (withReadWords (program? depth))
    else (plainPrograms.find? fun (known, _) => known.toList = name).map (·.2)

/-- How deep programs start each other. -/
def maxDepth : Nat := 32

/-- The names of all programs. -/
def programNames : List Text :=
  ((shellNames ++ ["env", "xargs"]) ++ plainPrograms.map (·.1)).map String.toList

/-- The files of the machine. -/
def files : Files := .withPrograms programNames

/-- The first length of an argument or a variable that is too long, in bytes. -/
def argumentBound : Nat := 131072

/-- Whether a text holds a NUL. -/
def holdsNul (text : Text) : Bool := text.contains '\x00'

/-- Whether a launch holds a NUL anywhere. -/
def launchHoldsNul (launch : Local.Launch) : Bool :=
  holdsNul launch.program || launch.args.any holdsNul || launch.cwd.any holdsNul ||
    launch.env.any fun (name, value) => holdsNul name || holdsNul value

/-- Whether an argument or a variable of a launch is too long. -/
def isTooLong (launch : Local.Launch) : Bool :=
  (launch.program :: launch.args).any (fun word => argumentBound ≤ Utf8.size word) ||
    launch.env.any fun (name, value) => argumentBound ≤ Utf8.size name + 1 + Utf8.size value

/-- The directories that a program is searched in. -/
def searchPath (env : Environment) : List Text :=
  ((env.get? "PATH".toList).getD "/bin:/usr/bin".toList).cutAll ':'

/-- The program found in one of the directories. A file that is no program is passed
over, but then counts more than one that is missing; the last fault counts otherwise. -/
def searchIn (place : Place) (name : Text) (denied : Bool) (fault : OsFault) :
    List Text → Except OsFault Text
  | [] => .error (if denied then .permissionDenied else fault)
  | directory :: directories =>
    let path := if directory.isEmpty then name else directory ++ '/' :: name
    match files.program place path with
    | .ok found => .ok found
    | .error .permissionDenied => searchIn place name true .permissionDenied directories
    | .error .notFound => searchIn place name denied .notFound directories
    | .error .notDirectory => searchIn place name denied .notDirectory directories
    | .error other => .error other

/-- The program that a name means. -/
def findProgram (place : Place) (env : Environment) (name : Text) : Except OsFault Text :=
  if name.isEmpty then .error .notFound
  else if name.contains '/' then files.program place name
  else if Files.maxName < Utf8.size name then .error .nameTooLong
  else searchIn place name false .notFound (searchPath env)

/-- The working directory and the program of a launch from a directory. -/
def prepare (base : Place) (launch : Local.Launch) : Except OsFault (Place × Text) :=
  if launchHoldsNul launch then .error .nulByte
  else do
    let place ← match launch.cwd with
      | none => pure base
      | some path => files.directory base path
    let name ← findProgram place launch.env launch.program
    if isTooLong launch then throw .argumentsTooLong
    return (place, name)

/-- Variables in the order of their names, as a new process gets them. -/
def orderedVariables (env : Environment) : Environment :=
  env.mergeSort fun (left, _) (right, _) => bytesLe (Utf8.encode left) (Utf8.encode right)

/-- The time that it takes to start a process. -/
def startingTime : Moment := 1000000

/-- What a launched process does with the outputs of the processes before it. -/
def outcome (base : Place) (before : List Outcome) (launch : Local.Launch) : Outcome :=
  let stdin : Stream := match launch.input with
    | .nothing => .empty
    | .payload bytes => .ofBytes bytes
    | .outputOf process => (before[process]?.map (·.stdout)).getD .empty
  match prepare base launch with
  | .error _ => .finished 0 [] [] 127
  | .ok (place, name) =>
    match program? maxDepth name with
    | none => .finished 0 [] [] 127
    | some program =>
      (program ⟨files, launch.args, orderedVariables launch.env, place⟩ stdin).delayed startingTime

/-- The outcomes of launches, each with those before it in view. -/
def outcomes (base : Place) : List Outcome → List Local.Launch → List Outcome
  | before, [] => before
  | before, launch :: launches => outcomes base (before ++ [outcome base before launch]) launches

/-- What a wait reads from a process. Without an end within the limit the time runs out,
and what was written by then is kept. -/
def captured (limit : Option Duration) (outcome : Outcome) : Local.Capture :=
  let ended := outcome.endsAt.filter fun moment => limit.all fun limit => moment ≤ limit.nanos
  match ended with
  | some _ => ⟨outcome.stdout.written, outcome.stderr.written, some outcome.status⟩
  | none =>
    let last := limit.map Duration.nanos
    ⟨outcome.stdout.writtenBy last, outcome.stderr.writtenBy last, none⟩

/-- The machine, with programs started from a directory. -/
def host (base : Place) : Local.Host where
  refusal _ launch := match prepare base launch with
    | .ok _ => none
    | .error fault => some fault
  wait trace process limit :=
    match (outcomes base [] (Local.Trace.started trace))[process]? with
    | some outcome => .ok (captured limit outcome)
    | none => .error .notFound

/-- The directory that processes start from where a caller does not choose one. -/
def workPlace : Place := Place.ofString "work"

/-- The root of all files. -/
def rootPlace : Place := []

end Errand.Machine
