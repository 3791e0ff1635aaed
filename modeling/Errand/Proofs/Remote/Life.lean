/-
# The life of a session

A session comes to life by connecting, is then called and closed in any order, and is
closed once more when it ends. Between two steps it is at rest: no retry is counted.
-/
import Errand.Proofs.Remote.Course

namespace Errand.Remote.Session

/-- What may be done with a session that has come to life. -/
inductive Step where
  | run (call : Run.Call) (options : Run.Options)
  | close
  deriving DecidableEq, Repr

/-- The session after a step. -/
def perform (session : Session) : Step → Session
  | .run call options => (session.run call options).2
  | .close => session.close

/-- The session after steps in order. -/
def performAll (session : Session) (steps : List Step) : Session := steps.foldl perform session

/-- A session connects for the first time. -/
def start (id : SessionId) (remote : Text) (maxRetries : Nat) (peer : Peer) :
    Except ConnectionFault Unit × Session :=
  (idle id remote maxRetries peer).reconnect

@[simp] theorem performAll_nil (session : Session) : session.performAll [] = session := rfl

@[simp] theorem performAll_cons (session : Session) (step : Step) (steps : List Step) :
    session.performAll (step :: steps) = (session.perform step).performAll steps := rfl

/-- A call goes as its request does, behind an event of its own. -/
theorem exists_course_of_run (session : Session) (call : Run.Call) (options : Run.Options) :
    ∃ course : Course, course.Fits session (session.maxRetries - session.retryCount) ∧
      session.run call options =
        ((course.outcome session).map (resultOf · call),
          course.after (requestOf options call) (session.note (.called call options))) := by
  obtain ⟨course, taken⟩ := Course.exists_taken (requestOf options call)
    (session.maxRetries - session.retryCount) (session.note (.called call options))
  refine ⟨course, ?_, ?_⟩
  · cases course with
    | unreached refusal => exact taken.fits
    | attempted faults ending => exact taken.fits
  · rw [run, taken.sends]
    cases course with
    | unreached refusal => rfl
    | attempted faults ending => rfl

/-- A session that is closed has no connection. -/
theorem close_isConnected (session : Session) : session.close.isConnected = false := by
  unfold close release
  split
  · rfl
  · next unconnected => simpa using unconnected

@[simp] theorem close_retryCount (session : Session) :
    session.close.retryCount = session.retryCount := by
  unfold close release
  split <;> rfl

theorem reconnect_retryCount (session : Session) :
    session.reconnect.2.retryCount = session.retryCount := by
  cases refused : session.peer.refusalAt 0 with
  | some refusal => rw [reconnect_of_refused refused]
  | none => rw [reconnect_of_accepted refused]

/-- A call counts no retry once it is over, whatever comes of it. -/
theorem run_retryCount {session : Session} (call : Run.Call) (options : Run.Options)
    (atRest : session.retryCount = 0) : (session.run call options).2.retryCount = 0 := by
  obtain ⟨course, -, runs⟩ := session.exists_course_of_run call options
  rw [runs]
  cases course with
  | unreached refusal => exact atRest
  | attempted faults ending => rfl

/-- A session at rest is at rest after any steps. -/
theorem performAll_retryCount {session : Session} (steps : List Step)
    (atRest : session.retryCount = 0) : (session.performAll steps).retryCount = 0 := by
  induction steps generalizing session with
  | nil => exact atRest
  | cons step steps ih =>
      rw [performAll_cons]
      cases step with
      | run call options => exact ih (run_retryCount call options atRest)
      | close => exact ih (by simpa [perform] using atRest)

/-- A session is at rest when it comes to life. -/
theorem start_retryCount (id : SessionId) (remote : Text) (maxRetries : Nat) (peer : Peer) :
    (start id remote maxRetries peer).2.retryCount = 0 :=
  (idle id remote maxRetries peer).reconnect_retryCount

end Errand.Remote.Session
