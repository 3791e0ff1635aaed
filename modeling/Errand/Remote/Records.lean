/-
# What a session writes to the log

The log of a session is read off its trace.
-/
import Errand.Log.Record
import Errand.Remote.Session

namespace Errand.Remote

/-- The name of a stream in log lines. -/
def streamName : Run.BlockOn → Text
  | .input => "Input".toList
  | .output => "Output".toList
  | .error => "Error".toList

/-- The record of an event on a session, if it leaves one. -/
def Event.record? (id : SessionId) (remote : Text) (maxRetries : Nat) :
    Event → Option Log.Record
  | .called (.one command) options =>
    some ⟨.debug, .session, "remote exec",
      [⟨"session", id.text⟩, ⟨"command", Quoted.text command⟩,
       ⟨"block_on", streamName options.blockOn⟩]⟩
  | .called (.many commands) options =>
    some ⟨.debug, .session, "remote shell",
      [⟨"session", id.text⟩, ⟨"lines", Decimal.ofNat (commands.length + 1)⟩,
       ⟨"timeout", Quoted.option Duration.text options.timeout⟩]⟩
  | .connected =>
    some ⟨.info, .session, "connected", [⟨"session", id.text⟩, ⟨"remote", remote⟩]⟩
  | .retrying attempt fault =>
    some ⟨.warn, .session, "transport fault, reconnecting",
      [⟨"session", id.text⟩, ⟨"attempt", Decimal.ofNat attempt⟩,
       ⟨"max", Decimal.ofNat maxRetries⟩, ⟨"error", fault⟩]⟩
  | .gaveUp retries fault =>
    some ⟨.warn, .session, "retry limit reached",
      [⟨"session", id.text⟩, ⟨"retries", Decimal.ofNat retries⟩, ⟨"error", fault⟩]⟩
  | .closed true =>
    some ⟨.info, .session, "closing connection", [⟨"session", id.text⟩, ⟨"remote", remote⟩]⟩
  | .closed false => none
  | .refused _ => none
  | .sent _ _ => none

/-- The records of all that has happened on a session. -/
def Session.records (session : Session) : List Log.Record :=
  session.trace.filterMap (Event.record? session.id session.remote session.maxRetries)

end Errand.Remote
