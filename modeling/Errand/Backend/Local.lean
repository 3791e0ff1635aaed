/-
# A shared local backend

A local backend keeps nothing between calls but the exit code of the latest call
that reported one. It may be shared between threads behind a lock. A thread that
fails while it holds the lock spoils it for all calls through the pool.
-/
import Errand.Local.Lines
import Errand.Local.Records

namespace Errand.Backend

/-- Local execution as the invoking user. -/
structure LocalBackend where
  lastExitCode : Option Int
  /-- Whether a thread has failed while it held the lock. -/
  isPoisoned : Bool
  deriving DecidableEq, Repr

/-- What may be done with a shared local backend. -/
inductive LocalStep where
  /-- A call by the thread that holds the backend. -/
  | direct (call : Run.Call) (options : Run.Options)
  /-- A call through the pool of worker threads. -/
  | pooled (call : Run.Call) (options : Run.Options)
  /-- A call that shares nothing with the backend. -/
  | separate (call : Run.Call) (options : Run.Options)
  /-- There is no connection to close, so nothing happens. -/
  | close
  /-- A thread fails while it holds the lock. -/
  | poison
  deriving DecidableEq, Repr

/-- The record of a call that is handed to the pool. -/
def dispatchRecord : Run.Call → Log.Record
  | .one command => ⟨.debug, .backend, "dispatching to blocking pool", [⟨"command", command⟩]⟩
  | .many commands =>
    ⟨.debug, .backend, "dispatching to blocking pool",
      [⟨"lines", Decimal.ofNat commands.length⟩]⟩

/-- The exit code that an outcome reports. -/
def reportedCode (outcome : Except Error Run.Result) : Option Int :=
  match outcome with
  | .ok result => result.exitCode
  | .error _ => none

namespace LocalBackend

/-- A backend that nothing has been done with. -/
def fresh : LocalBackend := ⟨none, false⟩

/-- The backend after a call that may have reported a code. -/
def record (backend : LocalBackend) (outcome : Except Error Run.Result) : LocalBackend :=
  { backend with lastExitCode := reportedCode outcome <|> backend.lastExitCode }

/-- Carry out a call, with the log records it leaves and the backend after it. -/
def run (host : Local.Host) (vars : ProcessVariables) (call : Run.Call)
    (options : Run.Options) (backend : LocalBackend) :
    Except Error Run.Result × List Log.Record × LocalBackend :=
  let (outcome, trace) := Local.run host vars options call
  (outcome, trace.records, backend.record outcome)

/-- Carry out a call in the pool. It fails at once if the lock is spoilt. -/
def runPooled (host : Local.Host) (vars : ProcessVariables) (call : Run.Call)
    (options : Run.Options) (backend : LocalBackend) :
    Except Error Run.Result × List Log.Record × LocalBackend :=
  if backend.isPoisoned then (.error .lockPoisoned, [dispatchRecord call], backend)
  else
    let (outcome, records, after) := backend.run host vars call options
    (outcome, dispatchRecord call :: records, after)

/-- What a step gives, if it gives anything, with the log records it leaves and the
backend after it. -/
def perform (host : Local.Host) (vars : ProcessVariables) (backend : LocalBackend) :
    LocalStep → Option (Except Error Run.Result) × List Log.Record × LocalBackend
  | .direct call options =>
    let (outcome, records, after) := backend.run host vars call options
    (some outcome, records, after)
  | .pooled call options =>
    let (outcome, records, after) := backend.runPooled host vars call options
    (some outcome, records, after)
  | .separate call options =>
    let (outcome, trace) := Local.run host vars options call
    (some outcome, trace.records, backend)
  | .close => (none, [], backend)
  | .poison => (none, [], { backend with isPoisoned := true })

end LocalBackend

end Errand.Backend
