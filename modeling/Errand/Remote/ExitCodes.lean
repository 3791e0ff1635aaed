/-
# Last exit codes, by thread and session

Each thread remembers the exit code of its own latest call on each session. A session
that ends is forgotten by the thread that ends it.
-/
import Errand.Remote.SessionId

namespace Errand.Remote

/-- A thread of the running process. -/
abbrev ThreadId := Nat

/-- The remembered codes, at most one for each thread and session. -/
abbrev ExitCodes := List ((ThreadId × SessionId) × Int)

namespace ExitCodes

/-- The code a thread remembers for a session. -/
def code? (codes : ExitCodes) (thread : ThreadId) (id : SessionId) : Option Int :=
  List.lookup (thread, id) codes

/-- The codes without what a thread remembers for a session. -/
def forget (codes : ExitCodes) (thread : ThreadId) (id : SessionId) : ExitCodes :=
  codes.filter fun (key, _) => key != (thread, id)

/-- The codes with one more remembered by a thread for a session. -/
def remember (codes : ExitCodes) (thread : ThreadId) (id : SessionId) (code : Int) :
    ExitCodes :=
  ((thread, id), code) :: codes.forget thread id

/-- The codes after a call that may have reported one. -/
def remember? (codes : ExitCodes) (thread : ThreadId) (id : SessionId) :
    Option Int → ExitCodes
  | none => codes
  | some code => codes.remember thread id code

end ExitCodes

end Errand.Remote
