/-
# Running a list of lines

Lines run one after another and nothing is piped between them. A line that begins
with `cd ` only moves the directory of the lines behind it. Every other line is one
plain command. The outputs are joined as bytes before they are decoded, and a line
whose time runs out is the last one.
-/
import Errand.Local.Line
import Errand.Run.Call

namespace Errand.Local

open Run Shell

/-- What the lines executed so far have left behind. -/
structure Tally where
  stdout : List UInt8
  stderr : List UInt8
  /-- The code of the line executed last. -/
  exitCode : Option Int
  timedOut : Bool
  deriving DecidableEq, Repr

namespace Tally

/-- Nothing executed yet. -/
def initial : Tally := ⟨[], [], none, false⟩

/-- The tally with one more line executed. -/
def add (tally : Tally) (captured : Capture) : Tally where
  stdout := tally.stdout ++ captured.stdout
  stderr := tally.stderr ++ captured.stderr
  exitCode := captured.exitCode
  timedOut := captured.timedOut

/-- The result of the lines executed. -/
def result (tally : Tally) : Result :=
  let stdout := Output.settle tally.stdout
  let stderr := Output.settle tally.stderr
  (if tally.timedOut then Result.interrupted stdout stderr
    else Result.finished stdout stderr).withExitCode? tally.exitCode

end Tally

/-- What one line of a list asks for. -/
inductive LineTask where
  | changeDir (target : Text)
  | start (program : Text) (args : List Text)
  | nothing
  deriving DecidableEq, Repr

/-- What a trimmed line asks for. -/
def LineTask.ofLine (line : Text) : Except ParseFault LineTask :=
  match line.after? ['c', 'd', ' '] with
  | some target => .ok (.changeDir target.trim)
  | none => do
    match ← Words.split line with
    | [] => return .nothing
    | program :: args => return .start program args

/-- The launch of a line. -/
def lineLaunch (context : Context) (payload : Option (List UInt8)) (program : Text)
    (args : List Text) : Launch where
  program := program
  args := args
  cwd := context.cwd
  env := context.env
  input := match payload with
    | some bytes => .payload bytes
    | none => .nothing
  stdout := .piped
  stderr := .piped

/-- Run the process of one line to its end. -/
def runLineProcess (host : Host) (limit : Option Duration) (origin : Origin) (launch : Launch)
    (process : ProcessId) (trace : Trace) : Except Error Capture × Trace :=
  match start host origin launch trace with
  | (some fault, trace) => (.error (.spawn launch.program fault), trace)
  | (none, trace) =>
    let (outcome, trace) := capture host process limit trace
    (outcome.mapError .io, trace ++ cleanUp [process])

/-- Run the lines still to come. `executed` counts the processes started so far, and
`payload` is there until a line has taken it. -/
def runLinesFrom (host : Host) (limit : Option Duration) :
    List Text → Context → (payload : Option (List UInt8)) → (executed : Nat) → Tally → Trace →
    Except Error Tally × Trace
  | [], _, _, _, tally, trace => (.ok tally, trace)
  | line :: later, context, payload, executed, tally, trace =>
    match LineTask.ofLine line.trim with
    | .error fault => (.error (.parse fault), trace)
    | .ok (.changeDir target) =>
      runLinesFrom host limit later (context.changeDir (some target)) payload executed tally trace
    | .ok .nothing => runLinesFrom host limit later context payload executed tally trace
    | .ok (.start program args) =>
      let launch := lineLaunch context payload program args
      match runLineProcess host limit (.line line.trim) launch executed trace with
      | (.error error, trace) => (.error error, trace)
      | (.ok captured, trace) =>
        let tally := tally.add captured
        if captured.timedOut then (.ok tally, trace)
        else runLinesFrom host limit later context none (executed + 1) tally trace

/-- Run a list of lines. -/
def runLines (host : Host) (vars : ProcessVariables) (options : Options)
    (lines : List Text) : Except Error Result × Trace :=
  let (outcome, trace) :=
    runLinesFrom host options.timeout lines (.ofOptions vars options) options.input 0
      .initial []
  (outcome.map Tally.result, trace)

/-- Carry out a call on this machine. -/
def run (host : Host) (vars : ProcessVariables) (options : Options) :
    Call → Except Error Result × Trace
  | .one line => runLine host vars options line
  | .many lines => runLines host vars options lines

end Errand.Local
