/-
# Running scripts

A script is run by one process that carries out builtins itself and starts programs
for all other commands. Its clock moves with what it waits for, and its input is
shared: what one command has read is gone for the next.
-/
import Errand.Machine.Programs.Deciding
import Errand.Machine.Programs.Printing
import Errand.Machine.ScriptSyntax

namespace Errand.Machine.Script

open Program

/-- Programs by name. -/
abbrev Launcher := Text → Option Program

/-- How a script goes on after a command. -/
inductive Flow where
  | goesOn
  | ends (status : Local.Status)
  /-- A command never comes to an end; its output goes on as given. -/
  | stuck (rest : Ending)
  deriving DecidableEq, Repr

/-- A script that is being run. -/
structure State where
  files : Files
  launcher : Launcher
  /-- The name of the script and its parameters. -/
  parameters : List Text
  vars : Environment
  /-- The names of the variables that programs get to see. -/
  exported : List Text
  place : Place
  code : Int
  stdin : Stream
  clock : Moment
  stdout : List (Moment × Bytes)
  stderr : List (Moment × Bytes)
  flow : Flow

/-- The number that a script knows itself by. -/
def ownNumber : Text := ['4', '2']

namespace State

/-- The value of a variable or of a special parameter. -/
def value (state : State) (name : Text) : Text :=
  match name with
  | ['?'] => Decimal.ofInt state.code
  | ['$'] => ownNumber
  | ['#'] => Decimal.ofNat (state.parameters.length - 1)
  | ['*'] => Text.join [' '] state.parameters.tail
  | ['@'] => Text.join [' '] state.parameters.tail
  | ['!'] => []
  | _ =>
    match count? name with
    | some index => state.parameters[index]?.getD []
    | none => (state.vars.get? name).getD []

/-- The text of a word, all pieces taken together. -/
def text (state : State) (word : Word) : Text :=
  word.flatMap fun
    | .plain text => text
    | .quoted text => text
    | .value name _ => state.value name

/-- The words that the pieces still to come make. `current` holds the word that has
begun. -/
def splitWord (state : State) : Option Text → Word → List Text
  | none, [] => []
  | some current, [] => [current]
  | current, .plain text :: pieces => splitWord state (some (current.getD [] ++ text)) pieces
  | current, .quoted text :: pieces => splitWord state (some (current.getD [] ++ text)) pieces
  | current, .value name true :: pieces =>
    splitWord state (some (current.getD [] ++ state.value name)) pieces
  | current, .value name false :: pieces =>
    let value := state.value name
    let parts := (value.splitBy fun a b => isBlank a == isBlank b).filter fun part =>
      part.any fun c => !isBlank c
    let startsBlank := value.head?.any isBlank
    let endsBlank := value.getLast?.any isBlank
    match parts with
    | [] => match current, value with
      | some text, [] => splitWord state (some text) pieces
      | some text, _ => text :: splitWord state none pieces
      | none, _ => splitWord state none pieces
    | first :: rest =>
      let (finished, first) := match current, startsBlank with
        | some text, true => ([text], first)
        | some text, false => ([], text ++ first)
        | none, _ => ([], first)
      let all := first :: rest
      if endsBlank then finished ++ all ++ splitWord state none pieces
      else finished ++ all.dropLast ++ splitWord state all.getLast? pieces

/-- The words of a command. -/
def words (state : State) (command : Simple) : List Text :=
  command.words.flatMap (state.splitWord none)

/-- The environment of programs that the script starts. -/
def environment (state : State) : Environment :=
  state.vars.filter fun (name, _) => state.exported.contains name

/-- The state with a variable set. -/
def assign (state : State) (name value : Text) : State :=
  { state with vars := state.vars.set name value }

/-- What a program is started with by the script. -/
def setting (state : State) (args : List Text) : Setting :=
  ⟨state.files, args, state.environment, state.place⟩

end State

/-- The assignment that a word makes if it stands in front of a command. -/
def assignment? (state : State) (word : Word) : Option (Text × Text) :=
  match word with
  | .plain text :: pieces =>
    match text.cut? '=' with
    | some (c :: name, value) =>
      if (c = '_' || c.isAlpha) && name.all isNameChar then
        some (c :: name, value ++ state.text pieces)
      else none
    | _ => none
  | _ => none

/-- A complaint of the script itself. -/
def complaint (text : Text) : Text := lineOf ("sh: 1: ".toList ++ text)

/-- The signals that have names. -/
def signals : List (String × Nat) :=
  [("HUP", 1), ("INT", 2), ("QUIT", 3), ("ABRT", 6), ("KILL", 9), ("USR1", 10), ("SEGV", 11),
   ("USR2", 12), ("PIPE", 13), ("ALRM", 14), ("TERM", 15)]

/-- The signal that a word names or numbers. -/
def signal? (word : Text) : Option Nat :=
  count? word <|> (signals.find? fun (name, _) =>
    name.toList = word || ("SIG" ++ name).toList = word).map (·.2)

/-- The signal that the words of `kill` send to the script itself. -/
def ownSignal? : List Text → Option Nat
  | [target] => if target = ownNumber then some 15 else none
  | ['-', 's'] :: [name, target] => if target = ownNumber then signal? name else none
  | ('-' :: name) :: [target] => if target = ownNumber then signal? name else none
  | _ => none

/-- What a command does to the script that runs it: its outcome, and the state of the
script apart from outputs and clock. -/
structure Effect where
  outcome : Outcome
  state : State

/-- An effect of a builtin: some output, a code, and the state as it is. -/
def answer (state : State) (stdout : Bytes) (complaint : Text) (code : Int) : Effect :=
  ⟨.finished 0 stdout (Utf8.encode complaint) code, state⟩

/-- The directory change of a script. -/
def changeDir (state : State) (words : List Text) : Effect :=
  let target := match words with
    | [] => state.value "HOME".toList
    | path :: _ => path
  match state.files.directory state.place target with
  | .ok place => answer { state with place := place } [] [] 0
  | .error _ => answer state [] (complaint ("cd: can't cd to ".toList ++ target)) 2

/-- The exports of a script. -/
def exportAll (state : State) (words : List Text) : State :=
  words.foldl (fun state word =>
    match word.cut? '=' with
    | some (name, value) =>
      { state.assign name value with exported := name :: state.exported }
    | none => { state with exported := word :: state.exported }) state

/-- Read one line into variables: the last of them takes the rest of the line. -/
def readLine (state : State) (names : List Text) : Effect :=
  let bytes := state.stdin.written
  let line := bytes.takeWhile (· ≠ 10)
  let rest := bytes.drop (line.length + 1)
  let moment := (state.stdin.writes.head?.map (·.1)).getD 0
  let text := (Utf8.decode line).trim
  let state := match names with
    | [] => state
    | name :: _ => state.assign name text
  let state := { state with stdin := { state.stdin with writes := [(moment, rest)] } }
  ⟨.finished moment [] [] (if bytes.contains 10 then 0 else 1), state⟩

/-- What a builtin does, if the name is one. -/
def builtin? (state : State) (name : Text) (words : List Text) : Option Effect :=
  let known (text : String) : Bool := name = text.toList
  if known ":" || known "true" then some (answer state [] [] 0)
  else if known "false" then some (answer state [] [] 1)
  else if known "echo" then some (answer state (Programs.scriptEcho words) [] 0)
  else if known "printf" then some ⟨Programs.formatter (state.setting words) .empty, state⟩
  else if known "pwd" then some (answer state (Utf8.encode (lineOf state.place.path)) [] 0)
  else if known "test" then some ⟨Programs.tested (state.setting words) .empty, state⟩
  else if known "[" then some ⟨Programs.bracketed (state.setting words) .empty, state⟩
  else if known "cd" then some (changeDir state words)
  else if known "export" then some (answer (exportAll state words) [] [] 0)
  else if known "unset" then
    some (answer { state with
      vars := words.foldl (fun vars name => vars.unset name) state.vars } [] [] 0)
  else if known "read" then some (readLine state words)
  else if known "shift" then
    some (answer { state with
      parameters := state.parameters.take 1 ++ state.parameters.drop 2 } [] [] 0)
  else if known "exit" then
    match words with
    | [] => some (answer { state with flow := .ends (.exited state.code) } [] [] state.code)
    | word :: _ =>
      match count? word with
      | some code =>
        let code : Int := (code % 256 : Nat)
        some (answer { state with flow := .ends (.exited code) } [] [] code)
      | none =>
        some (answer { state with flow := .ends (.exited 2) } []
          (complaint ("exit: Illegal number: ".toList ++ word)) 2)
  else if known "kill" then
    match ownSignal? words with
    | some 0 => some (answer state [] [] 0)
    | some signal => some (answer { state with flow := .ends (.killedBy signal) } [] [] 0)
    | none => some (answer state [] (complaint "kill: No such process".toList) 1)
  else none

/-- The program that a name leads to, or a complaint with its code. -/
def findProgram (state : State) (name : Text) : Except (Text × Int) Program :=
  let attempt (path : Text) : Except (Text × Int) Program :=
    match state.files.program state.place path with
    | .ok found => match state.launcher found with
      | some program => .ok program
      | none => .error (complaint (name ++ ": not found".toList), 127)
    | .error .permissionDenied => .error (complaint (name ++ ": Permission denied".toList), 126)
    | .error _ => .error (complaint (name ++ ": not found".toList), 127)
  if name.contains '/' then attempt name
  else
    let directories := ((state.vars.get? "PATH".toList).getD "/usr/bin:/bin".toList).cutAll ':'
    match directories.findSome? fun directory => (attempt (directory ++ '/' :: name)).toOption with
    | some program => .ok program
    | none => .error (complaint (name ++ ": not found".toList), 127)

/-- What a command whose words are known does. A program takes all of the input with it. -/
def perform (state : State) (name : Text) (words : List Text) : Effect :=
  match builtin? state name words with
  | some effect => effect
  | none =>
    match findProgram state name with
    | .ok program =>
      ⟨program (state.setting words) state.stdin, { state with stdin := .empty }⟩
    | .error (text, code) => answer state [] text code

/-- Where something that a command writes goes. -/
inductive Target where
  | stdout
  | stderr
  | nowhere
  deriving DecidableEq, Repr

/-- The targets of the two outputs after a redirection. -/
def redirected (state : State) (targets : Target × Target) (redirection : Redirection) :
    Target × Target :=
  let target := state.text redirection.target
  let chosen : Target :=
    if redirection.operator = ['>', '&'] then
      if target = ['1'] then targets.1 else if target = ['2'] then targets.2 else .nowhere
    else if target = "/dev/stdout".toList then targets.1
    else if target = "/dev/stderr".toList then targets.2
    else .nowhere
  if redirection.operator = ['<'] then targets
  else if redirection.descriptor = 2 then (targets.1, chosen) else (chosen, targets.2)

/-- The input of a command after its redirections. -/
def redirectedInput (state : State) (redirections : List Redirection) : Stream :=
  match redirections.reverse.find? (·.operator = ['<']) with
  | none => state.stdin
  | some redirection =>
    (state.files.read state.place (state.text redirection.target)).toOption.getD .empty

/-- The writes that go to a target. -/
def writesTo (target : Target) (targets : Target × Target) (outcome : Outcome) (clock : Moment) :
    List (Moment × Bytes) :=
  let moved (stream : Stream) : List (Moment × Bytes) := (stream.shift clock).writes
  (if targets.1 = target then moved outcome.stdout else []) ++
    (if targets.2 = target then moved outcome.stderr else [])

/-- The state after the outcome of a command that it has waited for. -/
def absorb (targets : Target × Target) (outcome : Outcome) (state : State) : State :=
  let state :=
    { state with
      stdout := state.stdout ++ writesTo .stdout targets outcome state.clock
      stderr := state.stderr ++ writesTo .stderr targets outcome state.clock
      code := outcome.status.code }
  match outcome.endsAt with
  | some moment => { state with clock := state.clock + moment }
  | none =>
    { state with flow := .stuck (if targets.1 = .stdout then outcome.stdout.ending else .silence) }

/-- Run one command. -/
def runSimple (state : State) (command : Simple) : State :=
  let assignments := command.words.takeWhile fun word => (assignment? state word).isSome
  let behind := { command with words := command.words.drop assignments.length }
  let assigned := assignments.foldl (fun state word =>
    match assignment? state word with
    | some (name, value) => state.assign name value
    | none => state) state
  match assigned.words behind with
  | [] => { assigned with code := 0 }
  | name :: words =>
    let shown := if assignments.isEmpty then state else
      { assigned with
        exported := (assignments.filterMap fun word => (assignment? state word).map (·.1)) ++
          state.exported }
    let targets := command.redirections.foldl (redirected state) (.stdout, .stderr)
    let isRedirected := command.redirections.any (·.operator = ['<'])
    let effect := perform { shown with stdin := redirectedInput state command.redirections } name words
    let after := { effect.state with
      stdin := if isRedirected then state.stdin else effect.state.stdin }
    let after := if assignments.isEmpty then after else
      { after with vars := state.vars, exported := state.exported }
    absorb targets effect.outcome after

/-- A state of a part of a pipeline, with nothing written yet. -/
def subshell (state : State) (stdin : Stream) : State :=
  { state with stdin := stdin, clock := 0, stdout := [], stderr := [] }

/-- What a finished state amounts to. -/
def outcomeOf (state : State) : Outcome :=
  let moment := state.clock
  match state.flow with
  | .goesOn =>
    ⟨⟨state.stdout, .closes moment⟩, ⟨state.stderr, .closes moment⟩, .exited state.code, some moment⟩
  | .ends status =>
    ⟨⟨state.stdout, .closes moment⟩, ⟨state.stderr, .closes moment⟩, status, some moment⟩
  | .stuck rest => ⟨⟨state.stdout, rest⟩, ⟨state.stderr, .silence⟩, .exited 0, none⟩

/-- The outcome of commands that read each other, with all that they complain about.
The last one decides; one that never ends is cut off with it. -/
def runParts (state : State) : Stream → List Simple → Outcome
  | stdin, [] => .afterReading stdin fun bytes => (bytes, 0)
  | stdin, [command] => outcomeOf (runSimple (subshell state stdin) command)
  | stdin, command :: commands =>
    let first := outcomeOf (runSimple (subshell state stdin) command)
    let rest := runParts state first.stdout commands
    { rest with
      stderr := { rest.stderr with writes := first.stderr.writes ++ rest.stderr.writes }
      endsAt := rest.endsAt.map fun moment => max moment (first.endsAt.getD 0) }

/-- Run one pipeline. A single command runs in the script itself. -/
def runPipeline (state : State) : List Simple → State
  | [] => state
  | [command] =>
    match command.words with
    | [.plain ['!']] :: words =>
      let after := runSimple state { command with words := words }
      { after with code := if after.code = 0 then 1 else 0 }
    | _ => runSimple state command
  | commands => absorb (.stdout, .stderr) (runParts state state.stdin commands)
      { state with stdin := .empty }

/-- Whether a pipeline is run in view of the code before it. -/
def Condition.holds (code : Int) : Condition → Bool
  | .always => true
  | .onSuccess => code = 0
  | .onFailure => code ≠ 0

/-- Run pipelines until the script ends. -/
def runBlock : State → Block → State
  | state, [] => state
  | state, (condition, pipeline) :: block =>
    match state.flow with
    | .goesOn =>
      if condition.holds state.code then runBlock (runPipeline state pipeline) block
      else runBlock state block
    | _ => state

/-- Run a script. -/
def runScript (launcher : Launcher) (setting : Setting) (parameters : List Text) (script : Text)
    (stdin : Stream) : Outcome :=
  match parse script with
  | none => .complains (complaint "Syntax error: Unterminated quoted string".toList) 2
  | some block =>
    outcomeOf (runBlock
      { files := setting.files, launcher := launcher, parameters := parameters,
        vars := setting.env, exported := setting.env.map (·.1), place := setting.place,
        code := 0, stdin := stdin, clock := 0, stdout := [], stderr := [], flow := .goesOn } block)

/-- Run the script in the words or the one that is read: `sh`. -/
def interpreter (launcher : Launcher) : Program := fun setting stdin =>
  match setting.args with
  | ['-', 'c'] :: script :: parameters =>
    runScript launcher setting (if parameters.isEmpty then ["sh".toList] else parameters) script stdin
  | [['-', 'c']] => .complains (lineOf "sh: 0: -c requires an argument".toList) 2
  | [] =>
    match stdin.whole? with
    | none => .stuck
    | some (bytes, moment) =>
      (runScript launcher setting ["sh".toList] (Utf8.decode bytes) .empty).delayed moment
  | file :: _ => .complains (lineOf ("sh: 0: cannot open ".toList ++ file ++ ": No such file".toList)) 2

end Errand.Machine.Script
