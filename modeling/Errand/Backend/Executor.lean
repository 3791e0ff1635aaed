/-
# One executor for both sides

The side is chosen once. Every later call goes the same way, whichever it is.
-/
import Errand.Backend.Local
import Errand.Backend.Selection
import Errand.Remote.Records

namespace Errand.Backend

open Remote

/-- What calls are made on. -/
inductive Executor where
  | here (backend : LocalBackend)
  | elsewhere (session : Session)
  deriving DecidableEq, Repr

namespace Executor

/-- Whether calls run on this machine. -/
def isLocal : Executor → Bool
  | .here _ => true
  | .elsewhere _ => false

/-- Whether calls run on another machine. -/
def isRemote (executor : Executor) : Bool := !executor.isLocal

/-- The record of the choice of this machine. -/
def localRecord (host : Option Text) : Log.Record :=
  ⟨.info, .selector, "using local backend", [⟨"host", Quoted.option Quoted.text host⟩]⟩

/-- The record of the choice of another machine. -/
def remoteRecord (credentials : Credentials) : Log.Record :=
  ⟨.info, .selector, "using remote backend",
    [⟨"host", credentials.host⟩, ⟨"user", credentials.user⟩,
     ⟨"port", Decimal.ofNat credentials.port.toNat⟩]⟩

/-- The executor for a target, with the log records of the choice. Another machine is
connected to at once. -/
def ofTarget (identity : Identity) (id : SessionId) (maxRetries : Nat) (peer : Peer)
    (target : Target) : Except Error Executor × List Log.Record :=
  match target.choose identity with
  | .error fault => (.error (.config fault), [])
  | .ok .here => (.ok (.here .fresh), [localRecord target.host])
  | .ok (.elsewhere credentials) =>
    let (outcome, session) := (Session.idle id credentials.remote maxRetries peer).reconnect
    let records := remoteRecord credentials :: session.records
    match outcome with
    | .ok () => (.ok (.elsewhere session), records)
    | .error fault => (.error (.connection fault), records)

/-- Carry out a call, with the log records it leaves and the executor after it. -/
def run (host : Local.Host) (vars : ProcessVariables) (call : Run.Call)
    (options : Run.Options) :
    Executor → Except Error Run.Result × List Log.Record × Executor
  | .here backend =>
    let (outcome, records, after) := backend.run host vars call options
    (outcome, records, .here after)
  | .elsewhere session =>
    let (outcome, after) := session.run call options
    (outcome.mapError .connection, after.records.drop session.records.length,
      .elsewhere after)

/-- The records of closing the connection, if there is one. -/
def closingRecords : Executor → List Log.Record
  | .here _ => []
  | .elsewhere session => session.close.records.drop session.records.length

end Executor

end Errand.Backend
