/-
# Running one compound line

Every stage that is not a builtin is started before the last one is waited for.
Builtins change the context of the stages behind them. Only the last stage is
reported, and every process of the line is killed and reaped before the call
returns, however it returns.
-/
import Errand.Error
import Errand.Local.Process
import Errand.Output.Raw
import Errand.Run.Context
import Errand.Run.Result
import Errand.Shell.Pipeline

namespace Errand.Local

open Run Shell

/-- What a stage does. -/
inductive Task where
  /-- Change the directory of the stages behind. -/
  | changeDir (target : Option Text)
  /-- Make assignments for the stages behind. -/
  | assign (words : List Text)
  | start (program : Text) (args : List Text)
  | nothing
  deriving DecidableEq, Repr

/-- What a command does in a context. The names of builtins are recognized before
anything is substituted. -/
def Task.ofCommand (context : Context) (command : Command) : Task :=
  match command.args with
  | ['c', 'd'] :: words => .changeDir words.head?
  | ['e', 'x', 'p', 'o', 'r', 't'] :: words => .assign words
  | _ =>
    match (command.expandFirst context.env).args with
    | [] => .nothing
    | program :: args => .start program args

/-- Where the starting of stages stands. -/
structure Progress where
  context : Context
  /-- The process whose output the next stage may read. -/
  feeder : Option ProcessId
  /-- All processes started so far, in order. -/
  started : List ProcessId
  trace : Trace

namespace Progress

/-- Nothing started yet. -/
def initial (context : Context) : Progress := ⟨context, none, [], []⟩

/-- The number of the next process. -/
def nextProcess (progress : Progress) : ProcessId := progress.started.length

/-- One more event, after which no stage reads the process started before. -/
def note (progress : Progress) (event : Event) : Progress :=
  { progress with feeder := none, trace := progress.trace ++ [event] }

/-- A directory change by a builtin. -/
def changeDir (progress : Progress) (target : Option Text) : Progress :=
  let context := progress.context.changeDir target
  { progress.note (.changedDir context.cwd) with context := context }

/-- Assignments by a builtin. -/
def assign (progress : Progress) (words : List Text) : Progress :=
  { progress.note (.assigned words) with context := progress.context.assignAll words }

end Progress

/-- The input of a stage: the process before it if it reads that one, else the
payload if it is the very first stage of its line. -/
def inputOf (options : Options) (index : Nat) (stage : Stage) (feeder : Option ProcessId) :
    Input :=
  match feeder, stage.readsPrevious with
  | some process, true => .outputOf process
  | _, _ =>
    match index, options.input with
    | 0, some payload => .payload payload
    | _, _ => .nothing

/-- The launch of a stage. Its output is kept when it is the last or the next one
reads it, its error output only when it is the last. -/
def launchOf (options : Options) (index : Nat) (stage : Stage) (isLast feedsNext : Bool)
    (progress : Progress) (program : Text) (args : List Text) : Launch where
  program := program
  args := args
  cwd := progress.context.cwd
  env := progress.context.env
  input := inputOf options index stage progress.feeder
  stdout := if isLast || feedsNext then .piped else .discarded
  stderr := if isLast then .piped else .discarded

/-- Start one process. -/
def start (host : Host) (origin : Origin) (launch : Launch) (trace : Trace) :
    Option OsFault × Trace :=
  let launched := trace ++ [.launched origin launch]
  match host.refusal trace launch with
  | some fault => (some fault, launched ++ [.refused fault])
  | none => (none, launched)

/-- Start the stages from number `index` on. Gives the process of the last stage, if
it has one, or the error that keeps a stage from starting. -/
def startStages (host : Host) (options : Options) :
    (index : Nat) → Pipeline → Progress → Except Error (Option ProcessId) × Progress
  | _, [], progress => (.ok none, progress)
  | index, stage :: later, progress =>
    let isLast := later.isEmpty
    let feedsNext := later.head?.any Stage.readsPrevious
    match Task.ofCommand progress.context stage.command with
    | .changeDir target => startStages host options (index + 1) later (progress.changeDir target)
    | .assign words => startStages host options (index + 1) later (progress.assign words)
    | .nothing => startStages host options (index + 1) later { progress with feeder := none }
    | .start program args =>
      let launch := launchOf options index stage isLast feedsNext progress program args
      match start host (.stage index) launch progress.trace with
      | (some fault, trace) =>
        (.error (.spawn program fault), { progress with feeder := none, trace := trace })
      | (none, trace) =>
        let process := progress.nextProcess
        let progress :=
          { progress with
            feeder := if feedsNext then some process else none
            started := progress.started ++ [process]
            trace := trace }
        if isLast then (.ok (some process), progress)
        else startStages host options (index + 1) later progress

/-- The result of a line whose last process was waited for. -/
def resultOf (captured : Capture) : Result :=
  let stdout := Output.settle captured.stdout
  let stderr := Output.settle captured.stderr
  if captured.timedOut then .interrupted stdout stderr
  else (Result.finished stdout stderr).withExitCode? captured.exitCode

/-- The result of a line that ends with a builtin. -/
def builtinResult : Result := (Result.finished [] []).withExitCode 0

/-- Run the stages of a line, with the trace of all that happens. -/
def runPipeline (host : Host) (options : Options) (context : Context) (line : Text)
    (stages : Pipeline) : Except Error Result × Trace :=
  match startStages host options 0 stages (.initial context) with
  | (.error error, progress) => (.error error, progress.trace ++ cleanUp progress.started)
  | (.ok none, progress) =>
    (.ok builtinResult,
      progress.trace ++ [.nothingToWait line] ++ cleanUp progress.started)
  | (.ok (some last), progress) =>
    let (outcome, trace) := capture host last options.timeout progress.trace
    ((outcome.mapError .io).map resultOf, trace ++ cleanUp progress.started)

/-- Run one line. A line that cannot be split starts nothing. -/
def runLine (host : Host) (vars : ProcessVariables) (options : Options) (line : Text) :
    Except Error Result × Trace :=
  match Pipeline.split line with
  | .error fault => (.error (.parse fault), [])
  | .ok stages => runPipeline host options (.ofOptions vars options) line stages

end Errand.Local
