/-
# Local processes

How the library sees the machine it runs on. A launch says with what a process is
started. Whether it starts, and what becomes of it, is up to a host, which may let
any launch and any wait fail. Everything that is done in one call is kept in a
trace, so that what was started, waited for and cleaned up can be stated of it.
-/
import Errand.Duration
import Errand.Environment
import Errand.OsFault

namespace Errand.Local

/-- A process of one call, numbered from 0 in the order of starting. -/
abbrev ProcessId := Nat

/-- What a process reads as its standard input. -/
inductive Input where
  | nothing
  | payload (bytes : List UInt8)
  /-- What an earlier process of the same call writes to its standard output. -/
  | outputOf (process : ProcessId)
  deriving DecidableEq, Repr

/-- What becomes of something a process writes. -/
inductive Sink where
  | discarded
  /-- It goes into a pipe, which the caller or the next process reads. -/
  | piped
  deriving DecidableEq, Repr

/-- With what a process is started. -/
structure Launch where
  program : Text
  args : List Text
  /-- Without a directory the process starts where the caller is. -/
  cwd : Option Text
  /-- All variables of the process: it inherits none. -/
  env : Environment
  input : Input
  stdout : Sink
  stderr : Sink
  deriving DecidableEq, Repr

/-- How a process ends. -/
inductive Status where
  | exited (code : Int)
  | killedBy (signal : Nat)
  deriving DecidableEq, Repr

/-- The exit code of a status. A signal counts from 128. -/
def Status.code : Status → Int
  | .exited code => code
  | .killedBy signal => 128 + signal

/-- What a wait gives: all that was read, and how the process ended, unless the time
ran out first. -/
structure Capture where
  stdout : List UInt8
  stderr : List UInt8
  status : Option Status
  deriving DecidableEq, Repr

/-- Whether the time ran out before the process ended. -/
def Capture.timedOut (capture : Capture) : Bool := capture.status.isNone

/-- The exit code, if the process ended. -/
def Capture.exitCode (capture : Capture) : Option Int := capture.status.map Status.code

/-- Which part of a call starts a process. -/
inductive Origin where
  /-- The stage of a pipeline at an index. -/
  | stage (index : Nat)
  /-- A line of a list. -/
  | line (text : Text)
  deriving DecidableEq, Repr

/-- What happens in one local call. -/
inductive Event where
  /-- A builtin has moved the context. -/
  | changedDir (cwd : Option Text)
  /-- A builtin has made the assignments of these words. -/
  | assigned (words : List Text)
  | launched (origin : Origin) (launch : Launch)
  /-- The process launched last could not be started. -/
  | refused (fault : OsFault)
  | waited (process : ProcessId) (limit : Option Duration) (outcome : Except OsFault Capture)
  | killed (process : ProcessId)
  | reaped (process : ProcessId)
  /-- The last stage of a line starts no process. -/
  | nothingToWait (line : Text)

/-- What has happened in one call so far. -/
abbrev Trace := List Event

/-- The launches of a trace that led to a process, in order. Only the last launch of a
call can have been refused. -/
def Trace.started : Trace → List Launch
  | [] => []
  | .launched _ _ :: .refused _ :: events => Trace.started events
  | .launched _ launch :: events => launch :: Trace.started events
  | _ :: events => Trace.started events

/-- The machine that processes run on. What it does may depend on all that has
happened in the call. -/
structure Host where
  /-- The fault that keeps a process from starting, if there is one. -/
  refusal : Trace → Launch → Option OsFault
  /-- Wait for a process, at most so long. -/
  wait : Trace → ProcessId → Option Duration → Except OsFault Capture

/-- Kill and reap processes, in order. -/
def cleanUp (processes : List ProcessId) : Trace :=
  processes.flatMap fun process => [.killed process, .reaped process]

/-- Wait for a process. One whose time runs out is killed and reaped. -/
def capture (host : Host) (process : ProcessId) (limit : Option Duration) (trace : Trace) :
    Except OsFault Capture × Trace :=
  let outcome := host.wait trace process limit
  let trace := trace ++ [.waited process limit outcome]
  match outcome with
  | .error fault => (.error fault, trace)
  | .ok captured =>
    (.ok captured, if captured.timedOut then trace ++ cleanUp [process] else trace)

end Errand.Local
