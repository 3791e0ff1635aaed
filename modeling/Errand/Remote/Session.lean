/-
# Remote sessions with bounded retry

A session keeps one connection and replaces it after a fault. A call is sent at most
`maxRetries + 1` times. Everything that happens on a session is kept in its trace,
so that the order of connecting, sending and closing can be stated of it.
-/
import Errand.Output.Terminal
import Errand.Output.Raw
import Errand.Remote.ConnectionFault
import Errand.Remote.Peer
import Errand.Remote.SessionId
import Errand.Run.Call
import Errand.Run.Result
import Errand.Text.Quoted

namespace Errand.Remote

/-- What happens on a session. -/
inductive Event where
  | called (call : Run.Call) (options : Run.Options)
  | connected
  | refused (fault : Fault)
  | sent (request : Request) (answer : Answer)
  /-- The `attempt`-th fault of a call, which is followed by a new connection. -/
  | retrying (attempt : Nat) (fault : Fault)
  /-- The fault that ends a call after `retries` retries. -/
  | gaveUp (retries : Nat) (fault : Fault)
  /-- The connection is released: on request, or in silence to make place for a new
  one. -/
  | closed (onRequest : Bool)
  deriving DecidableEq, Repr

/-- A session: its connection, its bound, what the other side will still do, and all
that has happened so far. -/
structure Session where
  id : SessionId
  /-- Who is at the other side, as `user@host:port`. -/
  remote : Text
  isConnected : Bool
  /-- Faults of the call under way that were followed by a retry. -/
  retryCount : Nat
  maxRetries : Nat
  peer : Peer
  trace : List Event
  deriving DecidableEq, Repr

/-- What stands before every single command: shells that are not login shells often
start without the usual directories in their search path. -/
def searchPathSetup : Text :=
  "export PATH=$PATH:/usr/local/sbin:/usr/local/bin:/usr/sbin:/usr/bin:/sbin:/bin; ".toList

/-- The last line of every command list: the shell ends with the status of the last
command. -/
def exitWithLastStatus : Text := "exit $?".toList

/-- The number of retries where a caller does not choose one. -/
def defaultMaxRetries : Nat := 5

/-- The request that a call sends. -/
def requestOf (options : Run.Options) : Run.Call → Request
  | .one command => .exec (searchPathSetup ++ command) options.input options.blockOn
  | .many commands => .shell (commands ++ [exitWithLastStatus]) options.timeout

/-- The result that a reply gives a call. Single commands take the output as it is
and never time out; shell output is stripped of control sequences first. -/
def resultOf (reply : Reply) : Run.Call → Run.Result
  | .one _ =>
    (Run.Result.finished (Output.settle reply.stdout) (Output.settle reply.stderr)).withExitCode?
      reply.exitStatus
  | .many _ =>
    let stdout := Output.settle (Output.Terminal.strip reply.stdout)
    let stderr := Output.settle (Output.Terminal.strip reply.stderr)
    if reply.timedOut then .interrupted stdout stderr
    else (Run.Result.finished stdout stderr).withExitCode? reply.exitStatus

namespace Session

/-- A session that has not connected yet. -/
def idle (id : SessionId) (remote : Text) (maxRetries : Nat) (peer : Peer) : Session :=
  ⟨id, remote, false, 0, maxRetries, peer, []⟩

/-- The session with one more event behind it. -/
def note (session : Session) (event : Event) : Session :=
  { session with trace := session.trace ++ [event] }

/-- The session without its connection, if it has one. -/
def release (onRequest : Bool) (session : Session) : Session :=
  if session.isConnected then { session.note (.closed onRequest) with isConnected := false }
  else session

/-- Close the connection. The next call connects again. -/
def close (session : Session) : Session := session.release true

/-- Replace the connection by a new one. -/
def reconnect (session : Session) : Except ConnectionFault Unit × Session :=
  let released := session.release false
  let (refusal, peer) := released.peer.connect
  match refusal with
  | some fault =>
    (.error (.cannotConnect session.remote fault),
      { released.note (.refused fault) with peer := peer })
  | none => (.ok (), { released.note .connected with peer := peer, isConnected := true })

/-- A connection, opened only where there is none. -/
def ensureConnected (session : Session) : Except ConnectionFault Unit × Session :=
  if session.isConnected then (.ok (), session) else session.reconnect

/-- Send a request over the connection. -/
def send (request : Request) (session : Session) : Answer × Session :=
  let (answer, peer) := session.peer.answer
  (answer, { session.note (.sent request answer) with peer := peer })

/-- The session with the count of retries back at zero. -/
def settleCount (session : Session) : Session := { session with retryCount := 0 }

/-- Send a request, and after each fault connect anew and send it again while
`retriesLeft` allows. -/
def sendRetrying (request : Request) :
    (retriesLeft : Nat) → Session → Except ConnectionFault Reply × Session
  | retriesLeft, session =>
    match session.ensureConnected with
    | (.error fault, session) => (.error fault, session)
    | (.ok (), session) =>
      match session.send request, retriesLeft with
      | (.reply reply, session), _ => (.ok reply, session.settleCount)
      | (.fault fault, session), 0 =>
        let session := session.note (.gaveUp session.retryCount fault)
        (.error (.retriesExhausted session.remote session.retryCount fault),
          session.settleCount)
      | (.fault fault, session), left + 1 =>
        let session := { session with retryCount := session.retryCount + 1 }
        let session := session.note (.retrying session.retryCount fault)
        match session.reconnect with
        | (.error refusal, session) => (.error refusal, session.settleCount)
        | (.ok (), session) => sendRetrying request left session

/-- Carry out a call. -/
def run (call : Run.Call) (options : Run.Options) (session : Session) :
    Except ConnectionFault Run.Result × Session :=
  let request := requestOf options call
  let (outcome, after) :=
    sendRetrying request (session.maxRetries - session.retryCount)
      (session.note (.called call options))
  (outcome.map fun reply => resultOf reply call, after)

/-- A session as it shows itself to a developer. -/
def describe (session : Session) : Text :=
  "RemoteSession \x7b id: SessionId(".toList ++ Decimal.ofNat session.id.value.toNat ++
    "), remote: ".toList ++ Quoted.text session.remote ++
    ", connected: ".toList ++ (toString session.isConnected).toList ++
    ", retry_count: ".toList ++ Decimal.ofNat session.retryCount ++
    ", max_retry_times: ".toList ++ Decimal.ofNat session.maxRetries ++ " \x7d".toList

end Session

end Errand.Remote
