/-
# The remote end of a session

What the other side will do is data: for each attempt to connect, whether it is
refused, and for each request, what comes back. When either list is used up,
connecting succeeds and a request succeeds without output. A fault is a failure of
the connection; a command that fails is a reply like any other.
-/
import Errand.Remote.ConnectionFault
import Errand.Run.Options

namespace Errand.Remote

/-- What is sent over a connection. -/
inductive Request where
  /-- One command, with a payload for its input. -/
  | exec (command : Text) (input : Option (List UInt8)) (blockOn : Run.BlockOn)
  /-- Lines for an interactive shell. -/
  | shell (lines : List Text) (timeout : Option Duration)
  deriving DecidableEq, Repr

/-- What a request gives back when the connection holds. -/
structure Reply where
  stdout : List UInt8
  stderr : List UInt8
  /-- Present only where the other side reports it. -/
  exitStatus : Option Int
  /-- Whether collecting stopped because the time ran out. -/
  timedOut : Bool
  deriving DecidableEq, Repr

/-- Nothing written, exit status 0. -/
def Reply.quiet : Reply := ⟨[], [], some 0, false⟩

/-- The fault that a protocol library reports with a session code. -/
def Fault.ofSessionCode (code : Int) (text : Text) : Fault :=
  "[Session(".toList ++ Decimal.ofInt code ++ ")] ".toList ++ text

/-- What comes back for one request. -/
inductive Answer where
  | reply (reply : Reply)
  | fault (fault : Fault)
  deriving DecidableEq, Repr

/-- What the other side will do. -/
structure Peer where
  /-- For each attempt to connect, the fault that refuses it. -/
  refusals : List (Option Fault)
  answers : List Answer
  deriving DecidableEq, Repr

namespace Peer

/-- The next attempt to connect: its refusal, if it is refused, and the peer after
it. -/
def connect (peer : Peer) : Option Fault × Peer :=
  (peer.refusals.head?.join, { peer with refusals := peer.refusals.tail })

/-- The answer to the next request, and the peer after it. -/
def answer (peer : Peer) : Answer × Peer :=
  (peer.answers.head?.getD (.reply .quiet), { peer with answers := peer.answers.tail })

/-- The peer with more to do once it has done the rest. -/
def append (peer : Peer) (refusals : List (Option Fault)) (answers : List Answer) : Peer :=
  ⟨peer.refusals ++ refusals, peer.answers ++ answers⟩

end Peer

end Errand.Remote
