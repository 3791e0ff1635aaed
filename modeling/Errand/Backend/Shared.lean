/-
# A session shared between threads

A session may be handed to a pool of worker threads behind a lock. A call in the pool is
a call of the worker thread, so the code it reports is not seen by the thread that asked
for it. A thread that fails while it holds the lock spoils it for all later calls in the
pool.
-/
import Errand.Backend.Local
import Errand.Remote.Records
import Errand.Remote.Registry

namespace Errand.Backend

open Remote

/-- A live session of a process, and the state of the lock around it. -/
structure SharedSession where
  registry : Registry
  session : Session
  isPoisoned : Bool

namespace SharedSession

/-- Connect the first session of a process. Without a connection its last state is given
back with the fault. -/
def connect (remote : Text) (maxRetries : Nat) (peer : Peer) :
    Except (ConnectionFault × Session) SharedSession :=
  match Registry.empty.connect remote maxRetries peer with
  | (.ok session, registry) => .ok ⟨registry, session, false⟩
  | (.error failure, _) => .error failure

/-- The shared session with a registry in its new state. -/
def refresh (shared : SharedSession) (registry : Registry) : SharedSession :=
  { shared with
    registry := registry
    session := (registry.session? shared.session.id).getD shared.session }

/-- A call of a thread that holds the session. -/
def run (thread : ThreadId) (call : Run.Call) (options : Run.Options) (shared : SharedSession) :
    Except Error Run.Result × SharedSession :=
  let (outcome, registry) := shared.registry.run thread shared.session call options
  (outcome.mapError .connection, shared.refresh registry)

/-- A call in the pool, carried out by one of its threads. It fails at once if the lock is
spoilt. -/
def runPooled (worker : ThreadId) (call : Run.Call) (options : Run.Options)
    (shared : SharedSession) : Except Error Run.Result × SharedSession :=
  if shared.isPoisoned then (.error .lockPoisoned, shared) else shared.run worker call options

/-- Close the connection. -/
def close (shared : SharedSession) : SharedSession :=
  shared.refresh (shared.registry.close shared.session)

/-- Let a thread fail while it holds the lock. -/
def poison (shared : SharedSession) : SharedSession := { shared with isPoisoned := true }

/-- The session with more to come from the other side. -/
def extendPeer (refusals : List (Option Fault)) (answers : List Answer) (shared : SharedSession) :
    SharedSession :=
  let session := { shared.session with peer := shared.session.peer.append refusals answers }
  { shared with registry := shared.registry.update session, session := session }

/-- End the session. Its last state is given back. -/
def drop (thread : ThreadId) (shared : SharedSession) : Session :=
  (shared.registry.drop thread shared.session).1

/-- The code that a thread reads. -/
def lastExitCode (thread : ThreadId) (shared : SharedSession) : Option Int :=
  shared.registry.lastExitCode thread shared.session.id

end SharedSession

end Errand.Backend
