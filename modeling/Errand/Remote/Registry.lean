/-
# All sessions of a process

The sessions that are alive, the number of the next one, and what each thread
remembers of exit codes. Any interleaving of what threads do with sessions is a list
of actions on a registry.
-/
import Errand.Remote.ExitCodes
import Errand.Remote.Session

namespace Errand.Remote

/-- The remote side of a running process. -/
structure Registry where
  nextId : SessionId
  sessions : List Session
  exitCodes : ExitCodes

/-- What a thread may do with sessions. -/
inductive Action where
  /-- Open a session, which takes the next number even if it cannot connect. -/
  | connect (remote : Text) (maxRetries : Nat) (peer : Peer)
  | run (id : SessionId) (call : Run.Call) (options : Run.Options)
  | close (id : SessionId)
  /-- End a session for good. -/
  | drop (id : SessionId)
  deriving DecidableEq, Repr

/-- What comes of an action. -/
inductive Outcome where
  | connected (outcome : Except ConnectionFault SessionId)
  | ran (outcome : Except ConnectionFault Run.Result)
  | closed
  | dropped
  /-- The session does not exist. -/
  | noSession

namespace Registry

/-- No session and nothing remembered. -/
def empty : Registry := ⟨.first, [], []⟩

/-- The live session with a number. -/
def session? (registry : Registry) (id : SessionId) : Option Session :=
  registry.sessions.find? (·.id = id)

/-- The registry with a session in its new state. -/
def update (registry : Registry) (session : Session) : Registry :=
  { registry with
    sessions := registry.sessions.map fun old => if old.id = session.id then session else old }

/-- Open a session. One that cannot connect does not come to life, but its trace is
given back. -/
def connect (registry : Registry) (remote : Text) (maxRetries : Nat) (peer : Peer) :
    Except (ConnectionFault × Session) Session × Registry :=
  let (outcome, session) := (Session.idle registry.nextId remote maxRetries peer).reconnect
  let registry := { registry with nextId := registry.nextId.next }
  match outcome with
  | .ok () => (.ok session, { registry with sessions := registry.sessions ++ [session] })
  | .error fault => (.error (fault, session), registry)

/-- Carry out a call of a thread on a session. The code it reports, if any, is what
the thread remembers afterwards. -/
def run (registry : Registry) (thread : ThreadId) (session : Session) (call : Run.Call)
    (options : Run.Options) : Except ConnectionFault Run.Result × Registry :=
  let (outcome, after) := session.run call options
  let code := match outcome with
    | .ok result => result.exitCode
    | .error _ => none
  let registry := registry.update after
  (outcome,
    { registry with exitCodes := registry.exitCodes.remember? thread session.id code })

/-- Close the connection of a session. -/
def close (registry : Registry) (session : Session) : Registry :=
  registry.update session.close

/-- End a session: its connection is closed and the ending thread forgets its code.
The last state of the session is given back. -/
def drop (registry : Registry) (thread : ThreadId) (session : Session) : Session × Registry :=
  (session.close,
    { registry with
      sessions := registry.sessions.filter (·.id ≠ session.id)
      exitCodes := registry.exitCodes.forget thread session.id })

/-- What an action of a thread does. -/
def perform (registry : Registry) (thread : ThreadId) : Action → Outcome × Registry
  | .connect remote maxRetries peer =>
    match registry.connect remote maxRetries peer with
    | (.ok session, registry) => (.connected (.ok session.id), registry)
    | (.error (fault, _), registry) => (.connected (.error fault), registry)
  | .run id call options =>
    match registry.session? id with
    | none => (.noSession, registry)
    | some session =>
      let (outcome, registry) := registry.run thread session call options
      (.ran outcome, registry)
  | .close id =>
    match registry.session? id with
    | none => (.noSession, registry)
    | some session => (.closed, registry.close session)
  | .drop id =>
    match registry.session? id with
    | none => (.noSession, registry)
    | some session => (.dropped, (registry.drop thread session).2)

/-- The registry after an interleaving of actions. -/
def performAll : List (ThreadId × Action) → Registry → Registry
  | [], registry => registry
  | (thread, action) :: more, registry => performAll more (registry.perform thread action).2

/-- The code a thread reads for a session. -/
def lastExitCode (registry : Registry) (thread : ThreadId) (id : SessionId) : Option Int :=
  registry.exitCodes.code? thread id

end Registry

end Errand.Remote
