/-
# The connections of a session

Connections are opened and closed in turn, so a session never holds two, and requests are
sent only while it holds one. The invariant relates all that has happened on a session to
whether it is connected now; every step keeps it, whichever way a call ends.
-/
import Errand.Proofs.Remote.Life

namespace Errand.Remote

/-- What an event does to the connection. -/
inductive Turn where
  | connect
  | close
  deriving DecidableEq, Repr

/-- The turn that an event is, if it is one. -/
def Event.turn? : Event → Option Turn
  | .connected => some .connect
  | .closed _ => some .close
  | _ => none

/-- The turns among events, in order. -/
def turns (events : List Event) : List Turn := events.filterMap Event.turn?

/-- How many connections are opened. -/
def openedIn (events : List Event) : Nat := (turns events).count .connect

/-- How many connections are closed. -/
def closedIn (events : List Event) : Nat := (turns events).count .close

/-- The connections that are closed, in order, where `opened` were opened before. Each has
the number that it was opened with; the one that is closed is the one opened last. -/
def closingsFrom : (opened : Nat) → List Event → List Nat
  | _, [] => []
  | opened, .connected :: events => closingsFrom (opened + 1) events
  | opened, .closed _ :: events => opened :: closingsFrom opened events
  | opened, _ :: events => closingsFrom opened events

/-- The connections that are closed, in order, numbered from one. -/
def closings (events : List Event) : List Nat := closingsFrom 0 events

@[simp] theorem turns_nil : turns [] = [] := rfl

@[simp] theorem turns_append (events later : List Event) :
    turns (events ++ later) = turns events ++ turns later := List.filterMap_append

@[simp] theorem openedIn_append (events later : List Event) :
    openedIn (events ++ later) = openedIn events + openedIn later := by
  simp [openedIn]

@[simp] theorem closedIn_append (events later : List Event) :
    closedIn (events ++ later) = closedIn events + closedIn later := by
  simp [closedIn]

/-- What is closed later is numbered by all that was opened before. -/
theorem closingsFrom_append (opened : Nat) (events later : List Event) :
    closingsFrom opened (events ++ later) =
      closingsFrom opened events ++ closingsFrom (opened + openedIn events) later := by
  induction events generalizing opened with
  | nil => rfl
  | cons event events ih =>
      have counted : openedIn (event :: events) = openedIn [event] + openedIn events :=
        openedIn_append [event] events
      rw [counted, ← Nat.add_assoc, List.cons_append]
      cases event with
      | connected => exact ih (opened + 1)
      | closed onRequest => exact congrArg (opened :: ·) (ih opened)
      | called call options => exact ih opened
      | refused fault => exact ih opened
      | sent request answer => exact ih opened
      | retrying attempt fault => exact ih opened
      | gaveUp retries fault => exact ih opened

theorem turns_of_noTurn {event : Event} (noTurn : event.turn? = none) : turns [event] = [] := by
  simp [turns, noTurn]

theorem openedIn_of_noTurn {event : Event} (noTurn : event.turn? = none) :
    openedIn [event] = 0 := by
  rw [openedIn, turns_of_noTurn noTurn]
  rfl

theorem closedIn_of_noTurn {event : Event} (noTurn : event.turn? = none) :
    closedIn [event] = 0 := by
  rw [closedIn, turns_of_noTurn noTurn]
  rfl

theorem closingsFrom_of_noTurn {event : Event} (opened : Nat) (noTurn : event.turn? = none) :
    closingsFrom opened [event] = [] := by
  cases event <;> first | rfl | simp [Event.turn?] at noTurn

/-- Events in the order that a single connection allows, and whether it is open behind
them. -/
inductive Orderly : (isOpen : Bool) → List Event → Prop
  | nil : Orderly false []
  | connected {events : List Event} :
      Orderly false events → Orderly true (events ++ [.connected])
  | closed {events : List Event} (onRequest : Bool) :
      Orderly true events → Orderly false (events ++ [.closed onRequest])
  | sent {events : List Event} (request : Request) (answer : Answer) :
      Orderly true events → Orderly true (events ++ [.sent request answer])
  | other {isOpen : Bool} {events : List Event} {event : Event} (noTurn : event.turn? = none)
      (noAttempt : event.isAttempt = false) :
      Orderly isOpen events → Orderly isOpen (events ++ [event])

namespace Orderly

variable {isOpen : Bool} {events : List Event}

/-- One connection more is opened than closed while one is open, else as many. -/
theorem openedIn_eq (orderly : Orderly isOpen events) :
    openedIn events = closedIn events + isOpen.toNat := by
  induction orderly with
  | nil => rfl
  | connected _ ih => rw [openedIn_append, closedIn_append, ih]; rfl
  | closed onRequest _ ih => rw [openedIn_append, closedIn_append, ih]; rfl
  | sent request answer _ ih => rw [openedIn_append, closedIn_append, ih]; rfl
  | other noTurn _ _ ih =>
      rw [openedIn_append, closedIn_append, ih, openedIn_of_noTurn noTurn,
        closedIn_of_noTurn noTurn]
      rfl

/-- An open connection was opened by the last turn. -/
theorem getLast?_turns (orderly : Orderly isOpen events) :
    isOpen = true ↔ (turns events).getLast? = some .connect := by
  induction orderly with
  | nil => simp
  | connected _ _ => simp [turns, Event.turn?]
  | closed onRequest _ _ => simp [turns, Event.turn?]
  | sent request answer _ ih => simpa [turns, Event.turn?] using ih
  | other noTurn _ _ ih => simpa [turns_of_noTurn noTurn] using ih

/-- Turns alternate, beginning with a connect: pairs of a connect and a close, and one more
connect while a connection is open. -/
theorem turns_eq (orderly : Orderly isOpen events) :
    turns events = (List.replicate (closedIn events) [Turn.connect, .close]).flatten ++
      if isOpen then [.connect] else [] := by
  induction orderly with
  | nil => rfl
  | connected _ ih =>
      rw [turns_append, closedIn_append, ih, List.append_assoc]
      rfl
  | closed onRequest _ ih =>
      have once : closedIn [.closed onRequest] = 1 := rfl
      rw [turns_append, closedIn_append, ih, once, List.replicate_succ', List.flatten_append]
      simp [turns, Event.turn?]
  | sent request answer _ ih =>
      rw [turns_append, closedIn_append, ih, List.append_assoc]
      rfl
  | other noTurn _ _ ih =>
      rw [turns_append, closedIn_append, ih, closedIn_of_noTurn noTurn, turns_of_noTurn noTurn,
        List.append_nil, Nat.add_zero]

/-- Each connection that is closed is closed once, in the order of opening. -/
theorem closings_eq (orderly : Orderly isOpen events) :
    closings events = List.range' 1 (closedIn events) := by
  induction orderly with
  | nil => rfl
  | connected _ ih =>
      rw [closings, closingsFrom_append, ← closings, ih, closedIn_append]
      exact List.append_nil _
  | @closed events onRequest orderly ih =>
      have opened : 0 + openedIn events = 1 + closedIn events := by
        rw [orderly.openedIn_eq, Nat.zero_add, Nat.add_comm]; rfl
      rw [closings, closingsFrom_append, ← closings, ih, closedIn_append, opened]
      exact List.range'_1_concat.symm
  | sent request answer _ ih =>
      rw [closings, closingsFrom_append, ← closings, ih, closedIn_append]
      exact List.append_nil _
  | other noTurn _ _ ih =>
      rw [closings, closingsFrom_append, ← closings, ih, closedIn_append,
        closedIn_of_noTurn noTurn, closingsFrom_of_noTurn _ noTurn]
      exact List.append_nil _

/-- What comes first of orderly events is orderly. -/
theorem exists_of_prefix {before : List Event} (orderly : Orderly isOpen events)
    (first : before <+: events) : ∃ wasOpen, Orderly wasOpen before := by
  induction orderly with
  | nil => exact ⟨false, List.prefix_nil.mp first ▸ .nil⟩
  | connected orderly ih =>
      rcases List.prefix_concat_iff.mp first with rfl | earlier
      · exact ⟨true, orderly.connected⟩
      · exact ih earlier
  | closed onRequest orderly ih =>
      rcases List.prefix_concat_iff.mp first with rfl | earlier
      · exact ⟨false, orderly.closed onRequest⟩
      · exact ih earlier
  | sent request answer orderly ih =>
      rcases List.prefix_concat_iff.mp first with rfl | earlier
      · exact ⟨true, orderly.sent request answer⟩
      · exact ih earlier
  | other noTurn noAttempt orderly ih =>
      rcases List.prefix_concat_iff.mp first with rfl | earlier
      · exact ⟨_, orderly.other noTurn noAttempt⟩
      · exact ih earlier

/-- A request is sent only while a connection is open. -/
theorem of_sent {request : Request} {answer : Answer}
    (orderly : Orderly isOpen (events ++ [.sent request answer])) : Orderly true events := by
  generalize appended : events ++ [.sent request answer] = all at orderly
  cases orderly with
  | nil => simp at appended
  | connected _ => simp at appended
  | closed onRequest _ => simp at appended
  | sent other answer orderly =>
      obtain ⟨rfl, -⟩ := List.append_inj' appended rfl
      exact orderly
  | other noTurn noAttempt _ =>
      obtain ⟨-, same⟩ := List.append_inj' appended rfl
      injection same with same
      rw [← same] at noAttempt
      simp [Event.isAttempt] at noAttempt

theorem called (call : Run.Call) (options : Run.Options) (orderly : Orderly isOpen events) :
    Orderly isOpen (events ++ [.called call options]) := orderly.other rfl rfl

theorem refused (fault : Fault) (orderly : Orderly isOpen events) :
    Orderly isOpen (events ++ [.refused fault]) := orderly.other rfl rfl

theorem retrying (attempt : Nat) (fault : Fault) (orderly : Orderly isOpen events) :
    Orderly isOpen (events ++ [.retrying attempt fault]) := orderly.other rfl rfl

theorem gaveUp (retries : Nat) (fault : Fault) (orderly : Orderly isOpen events) :
    Orderly isOpen (events ++ [.gaveUp retries fault]) := orderly.other rfl rfl

/-- Retried faults replace one open connection by another. -/
theorem retryEvents (request : Request) (retries : Nat) (faults : List Fault)
    (orderly : Orderly true events) :
    Orderly true (events ++ Remote.retryEvents request retries faults) := by
  induction faults generalizing retries events with
  | nil => rwa [Remote.retryEvents, List.append_nil]
  | cons fault faults ih =>
      have retried : Orderly true ((((events ++ [.sent request (.fault fault)]) ++
          [.retrying (retries + 1) fault]) ++ [.closed false]) ++ [.connected]) :=
        (((orderly.sent request (.fault fault)).retrying _ fault).closed false).connected
      have later := ih (retries + 1) retried
      simpa [Remote.retryEvents] using later

/-- The last attempt of a request leaves the connection open unless the next is refused. -/
theorem endingEvents (request : Request) (retries : Nat) (ending : Ending)
    (orderly : Orderly true events) :
    Orderly ending.leavesOpen (events ++ ending.events request retries) := by
  cases ending with
  | replied reply => exact orderly.sent request (.reply reply)
  | exhausted fault =>
      have ended := (orderly.sent request (.fault fault)).gaveUp retries fault
      rwa [List.append_assoc] at ended
  | refused fault refusal =>
      have ended := (((orderly.sent request (.fault fault)).retrying (retries + 1)
        fault).closed false).refused refusal
      rwa [List.append_assoc, List.append_assoc, List.append_assoc] at ended

end Orderly

/-- What has happened on a session is orderly, and its connection is the one left open. -/
def Session.IsOrderly (session : Session) : Prop := Orderly session.isConnected session.trace

namespace Session

theorem IsOrderly.release {session : Session} (orderly : session.IsOrderly) (onRequest : Bool) :
    (session.release onRequest).IsOrderly := by
  unfold Session.release
  split
  · next connected =>
      rw [IsOrderly, connected] at orderly
      exact orderly.closed onRequest
  · exact orderly

theorem IsOrderly.reconnect {session : Session} (orderly : session.IsOrderly) :
    session.reconnect.2.IsOrderly := by
  have released : Orderly false
      (session.trace ++ if session.isConnected then [.closed false] else []) := by
    unfold IsOrderly at orderly
    cases connected : session.isConnected with
    | true => exact (connected ▸ orderly).closed false
    | false => simpa using connected ▸ orderly
  cases refused : session.peer.refusalAt 0 with
  | some refusal =>
      rw [reconnect_of_refused refused, IsOrderly, ← List.append_assoc]
      exact released.refused refusal
  | none =>
      rw [reconnect_of_accepted refused, IsOrderly, ← List.append_assoc]
      exact released.connected

/-- A call keeps the order, whatever course it takes. -/
theorem IsOrderly.run {session : Session} (call : Run.Call) (options : Run.Options)
    (orderly : session.IsOrderly) : (session.run call options).2.IsOrderly := by
  obtain ⟨course, fits, runs⟩ := session.exists_course_of_run call options
  have begun : Orderly session.isConnected (session.trace ++ [.called call options]) :=
    orderly.called call options
  rw [runs]
  cases course with
  | unreached refusal => exact begun.refused refusal
  | attempted faults ending =>
      have opened : Orderly true
          (session.trace ++ [.called call options] ++ session.openingEvents) := by
        unfold openingEvents
        cases connected : session.isConnected with
        | true => simpa [connected] using begun
        | false => exact (connected ▸ begun).connected
      have ended := (opened.retryEvents (requestOf options call) session.retryCount
        faults).endingEvents (requestOf options call) (session.retryCount + faults.length) ending
      rw [IsOrderly, Course.after_trace, Course.events_note]
      simpa [Course.after, Course.events, note] using ended

theorem IsOrderly.perform {session : Session} (step : Step) (orderly : session.IsOrderly) :
    (session.perform step).IsOrderly := by
  cases step with
  | run call options => exact orderly.run call options
  | close => exact orderly.release true

/-- Every step keeps the order, so all steps do. -/
theorem IsOrderly.performAll {session : Session} (steps : List Step)
    (orderly : session.IsOrderly) : (session.performAll steps).IsOrderly := by
  induction steps generalizing session with
  | nil => exact orderly
  | cons step steps ih => exact ih (orderly.perform step)

/-- A session is orderly when it comes to life. -/
theorem start_isOrderly (id : SessionId) (remote : Text) (maxRetries : Nat) (peer : Peer) :
    (start id remote maxRetries peer).2.IsOrderly := by
  have unborn : (idle id remote maxRetries peer).IsOrderly := Orderly.nil
  exact unborn.reconnect

/-- Whatever the other side does and whatever is done with a session, its connections are
opened and closed in turn, never two are open, and requests are sent only over an open one.
A session is connected exactly if its last turn is a connect. Once it has ended, each
connection has been closed once; a session that never connected opened and closed nothing. -/
theorem connections_alternate (id : SessionId) (remote : Text) (maxRetries : Nat) (peer : Peer)
    (steps : List Step) :
    let first := start id remote maxRetries peer
    let session := first.2.performAll steps
    let ended := session.close
    turns session.trace = (List.replicate (closedIn session.trace) [Turn.connect, .close]).flatten
        ++ (if session.isConnected then [.connect] else []) ∧
      (∀ before, before <+: ended.trace →
        closedIn before ≤ openedIn before ∧ openedIn before ≤ closedIn before + 1) ∧
      (∀ before request answer, before ++ [.sent request answer] <+: ended.trace →
        openedIn before = closedIn before + 1) ∧
      (session.isConnected = true ↔ (turns session.trace).getLast? = some .connect) ∧
      turns ended.trace =
        (List.replicate (openedIn ended.trace) [Turn.connect, .close]).flatten ∧
      closings ended.trace = List.range' 1 (openedIn ended.trace) ∧
      ∀ fault, first.1 = .error fault → turns first.2.close.trace = [] := by
  intro first session ended
  have orderly : Orderly session.isConnected session.trace :=
    (start_isOrderly id remote maxRetries peer).performAll steps
  have orderlyToo : Orderly false ended.trace := by
    rw [← session.close_isConnected]
    exact IsOrderly.release orderly true
  have balanced : openedIn ended.trace = closedIn ended.trace := orderlyToo.openedIn_eq
  refine ⟨orderly.turns_eq, ?_, ?_, orderly.getLast?_turns, ?_, ?_, ?_⟩
  · intro before earlier
    obtain ⟨wasOpen, orderlyBefore⟩ := orderlyToo.exists_of_prefix earlier
    have counted := orderlyBefore.openedIn_eq
    have bound := wasOpen.toNat_le
    omega
  · intro before request answer earlier
    obtain ⟨wasOpen, orderlyBefore⟩ := orderlyToo.exists_of_prefix earlier
    exact orderlyBefore.of_sent.openedIn_eq
  · rw [balanced, orderlyToo.turns_eq]
    exact List.append_nil _
  · rw [balanced, orderlyToo.closings_eq]
  · intro fault refused
    cases accepted : (idle id remote maxRetries peer).peer.refusalAt 0 with
    | none =>
        have connects : first.1 = .ok () :=
          congrArg Prod.fst (reconnect_of_accepted accepted)
        rw [connects] at refused
        cases refused
    | some refusal =>
        have stays : first.2 = _ := congrArg Prod.snd (reconnect_of_refused accepted)
        rw [stays]
        rfl

end Session

end Errand.Remote
