/-
# The course of a request

What the other side answers and refuses settles how a request goes: which attempts
fault, how it ends, what it leaves in the trace. This module names the courses a
request can take and shows that `sendRetrying` takes the one that the other side
allows. A connection is replaced between two attempts and at no other time, so a
course is told by the faults of its attempts and by its ending.
-/
import Errand.Remote.Session

namespace Errand.Remote

namespace Peer

/-- The fault that refuses the attempt to connect with a number, counted from zero. -/
def refusalAt (peer : Peer) (number : Nat) : Option Fault := peer.refusals[number]?.join

/-- The answer to the request with a number, counted from zero. -/
def answerAt (peer : Peer) (number : Nat) : Answer :=
  peer.answers[number]?.getD (.reply .quiet)

/-- The peer after so many attempts to connect and so many requests. -/
def skip (connects requests : Nat) (peer : Peer) : Peer :=
  ⟨peer.refusals.drop connects, peer.answers.drop requests⟩

/-- The first answers are these faults. -/
def FaultsWith (peer : Peer) (faults : List Fault) : Prop :=
  ∀ number (h : number < faults.length), peer.answerAt number = .fault faults[number]

/-- The first so many attempts to connect are not refused. -/
def Accepts (peer : Peer) (count : Nat) : Prop :=
  ∀ number < count, peer.refusalAt number = none

theorem connect_eq (peer : Peer) : peer.connect = (peer.refusalAt 0, peer.skip 1 0) := by
  simp [connect, refusalAt, skip, List.head?_eq_getElem?]

theorem answer_eq (peer : Peer) : peer.answer = (peer.answerAt 0, peer.skip 0 1) := by
  simp [answer, answerAt, skip, List.head?_eq_getElem?]

@[simp] theorem refusalAt_skip (peer : Peer) (connects requests number : Nat) :
    (peer.skip connects requests).refusalAt number = peer.refusalAt (connects + number) := by
  simp [refusalAt, skip]

@[simp] theorem answerAt_skip (peer : Peer) (connects requests number : Nat) :
    (peer.skip connects requests).answerAt number = peer.answerAt (requests + number) := by
  simp [answerAt, skip]

@[simp] theorem skip_skip (peer : Peer) (connects requests moreConnects moreRequests : Nat) :
    (peer.skip connects requests).skip moreConnects moreRequests =
      peer.skip (connects + moreConnects) (requests + moreRequests) := by
  simp [skip]

theorem faultsWith_nil (peer : Peer) : peer.FaultsWith [] := by
  intro number h
  exact absurd h (Nat.not_lt_zero number)

/-- The faults after the first are those of the peer that has given the first. -/
theorem FaultsWith.cons {peer : Peer} {fault : Fault} {faults : List Fault} {connects : Nat}
    (first : peer.answerAt 0 = .fault fault)
    (later : (peer.skip connects 1).FaultsWith faults) : peer.FaultsWith (fault :: faults) := by
  intro number h
  cases number with
  | zero => exact first
  | succ number =>
      have found := later number (Nat.lt_of_succ_lt_succ h)
      rw [answerAt_skip, Nat.add_comm] at found
      exact found

theorem accepts_zero (peer : Peer) : peer.Accepts 0 := by
  intro number h
  exact absurd h (Nat.not_lt_zero number)

/-- One more attempt to connect is accepted if the first is and the rest are. -/
theorem Accepts.succ {peer : Peer} {count requests : Nat}
    (first : peer.refusalAt 0 = none)
    (later : (peer.skip 1 requests).Accepts count) : peer.Accepts (count + 1) := by
  intro number h
  cases number with
  | zero => exact first
  | succ number =>
      have found := later number (Nat.lt_of_succ_lt_succ h)
      rw [refusalAt_skip, Nat.add_comm] at found
      exact found

end Peer

/-- How the attempts of a request end. -/
inductive Ending where
  /-- The last attempt is answered. -/
  | replied (reply : Reply)
  /-- The last attempt faults and no retry is left. -/
  | exhausted (fault : Fault)
  /-- The last attempt faults and the connection that would replace its own is refused. -/
  | refused (fault refusal : Fault)
  deriving DecidableEq, Repr

/-- How a request goes. -/
inductive Course where
  /-- There is no connection and none is granted, so nothing is attempted. -/
  | unreached (refusal : Fault)
  /-- These faults are each followed by a new connection, then the last attempt is made. -/
  | attempted (faults : List Fault) (ending : Ending)
  deriving DecidableEq, Repr

/-- Whether an event is an attempt of a request. -/
def Event.isAttempt : Event → Bool
  | .sent _ _ => true
  | _ => false

/-- What attempts leave in a trace that fault and are each followed by a new connection,
after so many retries. -/
def retryEvents (request : Request) : (retries : Nat) → List Fault → List Event
  | _, [] => []
  | retries, fault :: faults =>
    [.sent request (.fault fault), .retrying (retries + 1) fault, .closed false, .connected] ++
      retryEvents request (retries + 1) faults

namespace Ending

/-- What the last attempt leaves in the trace, after so many retries. -/
def events (request : Request) (retries : Nat) : Ending → List Event
  | .replied reply => [.sent request (.reply reply)]
  | .exhausted fault => [.sent request (.fault fault), .gaveUp retries fault]
  | .refused fault refusal =>
    [.sent request (.fault fault), .retrying (retries + 1) fault, .closed false, .refused refusal]

/-- What a request gives whose attempts end so, after so many retries. -/
def outcome (remote : Text) (retries : Nat) : Ending → Except ConnectionFault Reply
  | .replied reply => .ok reply
  | .exhausted fault => .error (.retriesExhausted remote retries fault)
  | .refused _ refusal => .error (.cannotConnect remote refusal)

/-- Whether a connection is left. -/
def leavesOpen : Ending → Bool
  | .refused _ _ => false
  | _ => true

/-- How many attempts to connect the ending takes. -/
def connects : Ending → Nat
  | .refused _ _ => 1
  | _ => 0

/-- Whether a peer ends the attempts so at the attempt with a number, where `lazily`
connects come before the first attempt and `limit` retries are allowed. -/
def Fits (peer : Peer) (lazily limit number : Nat) : Ending → Prop
  | .replied reply => number ≤ limit ∧ peer.answerAt number = .reply reply
  | .exhausted fault => number = limit ∧ peer.answerAt number = .fault fault
  | .refused fault refusal =>
    number < limit ∧ peer.answerAt number = .fault fault ∧
      peer.refusalAt (lazily + number) = some refusal

theorem Fits.number_le {peer : Peer} {lazily limit number : Nat} {ending : Ending}
    (fits : ending.Fits peer lazily limit number) : number ≤ limit := by
  cases ending with
  | replied reply => exact fits.1
  | exhausted fault => exact Nat.le_of_eq fits.1
  | refused fault refusal => exact Nat.le_of_lt fits.1

/-- A peer ends the attempts in one way only at the attempt with a number. -/
theorem Fits.unique {peer : Peer} {lazily limit number : Nat} {ending other : Ending}
    (fits : ending.Fits peer lazily limit number)
    (fitsToo : other.Fits peer lazily limit number) : ending = other := by
  cases ending with
  | replied reply => cases other <;> grind [Fits]
  | exhausted fault => cases other <;> grind [Fits]
  | refused fault refusal => cases other <;> grind [Fits]

/-- An ending that fits behind one more attempt with a connection of its own. -/
theorem Fits.succ {peer : Peer} {limit number : Nat} {ending : Ending}
    (fits : ending.Fits (peer.skip 1 1) 0 limit number) :
    ending.Fits peer 0 (limit + 1) (number + 1) := by
  cases ending with
  | replied reply =>
      obtain ⟨within, answered⟩ := fits
      rw [Peer.answerAt_skip, Nat.add_comm] at answered
      exact ⟨Nat.succ_le_succ within, answered⟩
  | exhausted fault =>
      obtain ⟨within, answered⟩ := fits
      rw [Peer.answerAt_skip, Nat.add_comm] at answered
      exact ⟨congrArg (· + 1) within, answered⟩
  | refused fault refusal =>
      obtain ⟨within, answered, unconnected⟩ := fits
      rw [Peer.answerAt_skip, Nat.add_comm] at answered
      rw [Peer.refusalAt_skip, Nat.add_comm 1, Nat.add_assoc] at unconnected
      exact ⟨Nat.succ_lt_succ within, answered, unconnected⟩

/-- An ending that fits behind a connection made before the first attempt. -/
theorem Fits.lazily {peer : Peer} {limit number : Nat} {ending : Ending}
    (fits : ending.Fits (peer.skip 1 0) 0 limit number) :
    ending.Fits peer 1 limit number := by
  cases ending with
  | replied reply => simpa [Fits] using fits
  | exhausted fault => simpa [Fits] using fits
  | refused fault refusal => simpa [Fits] using fits

end Ending

namespace Session

/-- How many connections a session opens before the first attempt of a request. -/
def lazyConnects (session : Session) : Nat := if session.isConnected then 0 else 1

/-- What opening a connection before the first attempt leaves in the trace. -/
def openingEvents (session : Session) : List Event :=
  if session.isConnected then [] else [.connected]

end Session

namespace Course

/-- Whether the other side makes a request go so, with `limit` retries allowed. -/
def Fits (session : Session) (limit : Nat) : Course → Prop
  | .unreached refusal =>
    session.isConnected = false ∧ session.peer.refusalAt 0 = some refusal
  | .attempted faults ending =>
    session.peer.FaultsWith faults ∧
      session.peer.Accepts (session.lazyConnects + faults.length) ∧
      ending.Fits session.peer session.lazyConnects limit faults.length

/-- What a request gives that goes so. -/
def outcome (session : Session) : Course → Except ConnectionFault Reply
  | .unreached refusal => .error (.cannotConnect session.remote refusal)
  | .attempted faults ending => ending.outcome session.remote (session.retryCount + faults.length)

/-- What a request leaves in the trace that goes so. -/
def events (request : Request) (session : Session) : Course → List Event
  | .unreached refusal => [.refused refusal]
  | .attempted faults ending =>
    session.openingEvents ++ (retryEvents request session.retryCount faults ++
      ending.events request (session.retryCount + faults.length))

/-- The session after a request that went so. -/
def after (request : Request) (session : Session) (course : Course) : Session :=
  match course with
  | .unreached _ =>
    { session with
      peer := session.peer.skip 1 0
      trace := session.trace ++ course.events request session }
  | .attempted faults ending =>
    { session with
      isConnected := ending.leavesOpen
      retryCount := 0
      peer := session.peer.skip (session.lazyConnects + faults.length + ending.connects)
        (faults.length + 1)
      trace := session.trace ++ course.events request session }

@[simp] theorem events_note (request : Request) (session : Session) (event : Event)
    (course : Course) :
    course.events request (session.note event) = course.events request session := by
  cases course <;> rfl

theorem after_trace (request : Request) (session : Session) (course : Course) :
    (course.after request session).trace = session.trace ++ course.events request session := by
  cases course <;> rfl

section Outcome

variable {session : Session} {course : Course} {read : Reply → Run.Result}

/-- Only an answered attempt gives a result. -/
theorem exists_of_outcome_ok {result : Run.Result}
    (gives : (course.outcome session).map read = .ok result) :
    ∃ faults reply, course = .attempted faults (.replied reply) ∧ read reply = result := by
  cases course with
  | unreached refusal => cases gives
  | attempted faults ending =>
      cases ending with
      | replied reply => exact ⟨faults, reply, rfl, Except.ok.inj gives⟩
      | exhausted fault => cases gives
      | refused fault refusal => cases gives

/-- Only a fault with no retry left uses the retries up. -/
theorem exists_of_outcome_retriesExhausted {remote : Text} {retries : Nat} {fault : Fault}
    (gives : (course.outcome session).map read = .error (.retriesExhausted remote retries fault)) :
    ∃ faults, course = .attempted faults (.exhausted fault) ∧ remote = session.remote ∧
      retries = session.retryCount + faults.length := by
  cases course with
  | unreached refusal => cases gives
  | attempted faults ending =>
      cases ending with
      | replied reply => cases gives
      | exhausted last => cases gives; exact ⟨faults, rfl, rfl, rfl⟩
      | refused fault refusal => cases gives

/-- Only a refused connection, before the first attempt or after a fault, cannot connect. -/
theorem exists_of_outcome_cannotConnect {remote : Text} {refusal : Fault}
    (gives : (course.outcome session).map read = .error (.cannotConnect remote refusal)) :
    remote = session.remote ∧ (course = .unreached refusal ∨
      ∃ faults fault, course = .attempted faults (.refused fault refusal)) := by
  cases course with
  | unreached first => cases gives; exact ⟨rfl, .inl rfl⟩
  | attempted faults ending =>
      cases ending with
      | replied reply => cases gives
      | exhausted last => cases gives
      | refused fault last => cases gives; exact ⟨rfl, .inr ⟨faults, fault, rfl⟩⟩

end Outcome

end Course

namespace Session

/-- Opening a connection attempts nothing. -/
theorem isAttempt_of_mem_openingEvents {session : Session} {event : Event}
    (opening : event ∈ session.openingEvents) : event.isAttempt = false := by
  unfold openingEvents at opening
  split at opening
  · cases opening
  · obtain rfl := List.mem_singleton.mp opening
    rfl

/-- The session with a connection that it did not have before. -/
def opened (session : Session) : Session :=
  { session with
    isConnected := true
    peer := session.peer.skip 1 0
    trace := session.trace ++ [.connected] }

/-- The session after an attempt that faulted and was followed by a new connection. -/
def retried (request : Request) (fault : Fault) (session : Session) : Session :=
  { session with
    retryCount := session.retryCount + 1
    peer := session.peer.skip 1 1
    trace := session.trace ++ [.sent request (.fault fault),
      .retrying (session.retryCount + 1) fault, .closed false, .connected] }

theorem send_eq (request : Request) (session : Session) :
    session.send request = (session.peer.answerAt 0,
      { session with
        peer := session.peer.skip 0 1
        trace := session.trace ++ [.sent request (session.peer.answerAt 0)] }) := by
  simp only [send, Peer.answer_eq, note]

theorem ensureConnected_of_connected {session : Session} (connected : session.isConnected = true) :
    session.ensureConnected = (.ok (), session) := by
  simp only [ensureConnected, connected, if_true]

/-- A new connection that is refused leaves none, and the old one is closed. -/
theorem reconnect_of_refused {session : Session} {refusal : Fault}
    (refused : session.peer.refusalAt 0 = some refusal) :
    session.reconnect = (.error (.cannotConnect session.remote refusal), { session with
      isConnected := false
      peer := session.peer.skip 1 0
      trace := session.trace ++
        ((if session.isConnected then [.closed false] else []) ++ [.refused refusal]) }) := by
  by_cases connected : session.isConnected = true
  · simp [reconnect, release, note, connected, Peer.connect_eq, refused]
  · simp [reconnect, release, note, connected, Peer.connect_eq, refused]

/-- A new connection that is granted replaces the old one, which is closed first. -/
theorem reconnect_of_accepted {session : Session} (accepted : session.peer.refusalAt 0 = none) :
    session.reconnect = (.ok (), { session with
      isConnected := true
      peer := session.peer.skip 1 0
      trace := session.trace ++
        ((if session.isConnected then [.closed false] else []) ++ [.connected]) }) := by
  by_cases connected : session.isConnected = true
  · simp [reconnect, release, note, connected, Peer.connect_eq, accepted]
  · simp [reconnect, release, note, connected, Peer.connect_eq, accepted]

/-- A request over an open connection that is answered ends there. -/
theorem sendRetrying_of_reply (request : Request) (limit : Nat) {session : Session} {reply : Reply}
    (connected : session.isConnected = true)
    (answered : session.peer.answerAt 0 = .reply reply) :
    sendRetrying request limit session = (.ok reply, { session with
      retryCount := 0
      peer := session.peer.skip 0 1
      trace := session.trace ++ [.sent request (.reply reply)] }) := by
  rw [sendRetrying, ensureConnected_of_connected connected]
  simp only [send_eq, answered, settleCount]

/-- A fault with no retry left ends the request, and the connection stays open. -/
theorem sendRetrying_of_exhausted (request : Request) {session : Session} {fault : Fault}
    (connected : session.isConnected = true)
    (answered : session.peer.answerAt 0 = .fault fault) :
    sendRetrying request 0 session =
      (.error (.retriesExhausted session.remote session.retryCount fault), { session with
        retryCount := 0
        peer := session.peer.skip 0 1
        trace := session.trace ++
          [.sent request (.fault fault), .gaveUp session.retryCount fault] }) := by
  rw [sendRetrying, ensureConnected_of_connected connected]
  simp only [send_eq, answered, settleCount, note, List.append_assoc, List.cons_append,
    List.nil_append]

/-- A fault whose new connection is refused ends the request. -/
theorem sendRetrying_of_refused (request : Request) (limit : Nat) {session : Session}
    {fault refusal : Fault} (connected : session.isConnected = true)
    (answered : session.peer.answerAt 0 = .fault fault)
    (refused : session.peer.refusalAt 0 = some refusal) :
    sendRetrying request (limit + 1) session =
      (.error (.cannotConnect session.remote refusal), { session with
        isConnected := false
        retryCount := 0
        peer := session.peer.skip 1 1
        trace := session.trace ++ [.sent request (.fault fault),
          .retrying (session.retryCount + 1) fault, .closed false, .refused refusal] }) := by
  rw [sendRetrying, ensureConnected_of_connected connected]
  simp only [send_eq, answered, note]
  rw [reconnect_of_refused (by simpa using refused)]
  simp [settleCount, connected]

/-- A fault whose new connection is granted leaves the rest of the request to a session
with one retry behind it. -/
theorem sendRetrying_of_accepted (request : Request) (limit : Nat) {session : Session}
    {fault : Fault} (connected : session.isConnected = true)
    (answered : session.peer.answerAt 0 = .fault fault)
    (accepted : session.peer.refusalAt 0 = none) :
    sendRetrying request (limit + 1) session =
      sendRetrying request limit (session.retried request fault) := by
  rw [sendRetrying, ensureConnected_of_connected connected]
  simp only [send_eq, answered, note]
  rw [reconnect_of_accepted (by simpa using accepted)]
  simp [retried, connected]

/-- Without a connection a request is not attempted if none is granted. -/
theorem sendRetrying_of_unreached (request : Request) (limit : Nat) {session : Session}
    {refusal : Fault} (unconnected : session.isConnected = false)
    (refused : session.peer.refusalAt 0 = some refusal) :
    sendRetrying request limit session =
      (.error (.cannotConnect session.remote refusal), { session with
        peer := session.peer.skip 1 0
        trace := session.trace ++ [.refused refusal] }) := by
  rw [sendRetrying, ensureConnected, if_neg (by simp [unconnected]), reconnect_of_refused refused]
  simp [unconnected]

/-- Without a connection a request first opens one. -/
theorem sendRetrying_of_opened (request : Request) (limit : Nat) {session : Session}
    (unconnected : session.isConnected = false)
    (accepted : session.peer.refusalAt 0 = none) :
    sendRetrying request limit session = sendRetrying request limit session.opened := by
  have connects : session.ensureConnected = session.opened.ensureConnected := by
    have connected : session.opened.isConnected = true := rfl
    rw [ensureConnected_of_connected connected, ensureConnected, if_neg (by simp [unconnected]),
      reconnect_of_accepted accepted]
    simp [opened, unconnected]
  rw [sendRetrying, sendRetrying, connects]

end Session

/-- A request on a session, with `limit` retries allowed, goes so, and the other side is
why. -/
structure Course.Taken (request : Request) (limit : Nat) (session : Session) (course : Course) :
    Prop where
  fits : course.Fits session limit
  sends : session.sendRetrying request limit =
    (course.outcome session, course.after request session)

namespace Course

theorem taken_of_reply (request : Request) (limit : Nat) {session : Session} {reply : Reply}
    (connected : session.isConnected = true)
    (answered : session.peer.answerAt 0 = .reply reply) :
    Taken request limit session (.attempted [] (.replied reply)) where
  fits := by
    refine ⟨session.peer.faultsWith_nil, ?_, Nat.zero_le limit, answered⟩
    simpa [Session.lazyConnects, connected] using session.peer.accepts_zero
  sends := by
    rw [Session.sendRetrying_of_reply request limit connected answered]
    simp [outcome, after, events, Ending.outcome, Ending.events, Ending.leavesOpen,
      Ending.connects, retryEvents, Session.lazyConnects, Session.openingEvents, connected]

theorem taken_of_exhausted (request : Request) {session : Session} {fault : Fault}
    (connected : session.isConnected = true)
    (answered : session.peer.answerAt 0 = .fault fault) :
    Taken request 0 session (.attempted [] (.exhausted fault)) where
  fits := by
    refine ⟨session.peer.faultsWith_nil, ?_, rfl, answered⟩
    simpa [Session.lazyConnects, connected] using session.peer.accepts_zero
  sends := by
    rw [Session.sendRetrying_of_exhausted request connected answered]
    simp [outcome, after, events, Ending.outcome, Ending.events, Ending.leavesOpen,
      Ending.connects, retryEvents, Session.lazyConnects, Session.openingEvents, connected]

theorem taken_of_refused (request : Request) (limit : Nat) {session : Session}
    {fault refusal : Fault} (connected : session.isConnected = true)
    (answered : session.peer.answerAt 0 = .fault fault)
    (refused : session.peer.refusalAt 0 = some refusal) :
    Taken request (limit + 1) session (.attempted [] (.refused fault refusal)) where
  fits := by
    refine ⟨session.peer.faultsWith_nil, ?_, Nat.succ_pos limit, answered, ?_⟩
    · simpa [Session.lazyConnects, connected] using session.peer.accepts_zero
    · simpa [Session.lazyConnects, connected] using refused
  sends := by
    rw [Session.sendRetrying_of_refused request limit connected answered refused]
    simp [outcome, after, events, Ending.outcome, Ending.events, Ending.leavesOpen,
      Ending.connects, retryEvents, Session.lazyConnects, Session.openingEvents, connected]

/-- A course taken behind one more fault that was followed by a new connection. -/
theorem Taken.retried {request : Request} {limit : Nat} {session : Session} {fault : Fault}
    {faults : List Fault} {ending : Ending} (connected : session.isConnected = true)
    (answered : session.peer.answerAt 0 = .fault fault)
    (accepted : session.peer.refusalAt 0 = none)
    (later : Taken request limit (session.retried request fault) (.attempted faults ending)) :
    Taken request (limit + 1) session (.attempted (fault :: faults) ending) where
  fits := by
    obtain ⟨faulted, accepts, fits⟩ := later.fits
    simp only [Session.lazyConnects, Session.retried, connected, if_true, Nat.zero_add]
      at accepts fits
    refine ⟨faulted.cons answered, ?_, ?_⟩
    · simpa [Session.lazyConnects, connected] using accepts.succ accepted
    · simpa [Session.lazyConnects, connected] using fits.succ
  sends := by
    rw [Session.sendRetrying_of_accepted request limit connected answered accepted, later.sends]
    have counted (retries : Nat) : retries + 1 + faults.length = retries + (faults.length + 1) := by
      omega
    have skipped : 1 + (faults.length + ending.connects) = faults.length + 1 + ending.connects := by
      omega
    simp [outcome, after, events, retryEvents, Session.retried, Session.lazyConnects,
      Session.openingEvents, connected, counted, skipped, Nat.add_comm 1]

/-- Over an open connection a request takes the course that the other side allows. The
induction is on the retries left, each of which hands on the rest of the peer's script. -/
theorem exists_taken_of_connected (request : Request) (limit : Nat) (session : Session)
    (connected : session.isConnected = true) :
    ∃ faults ending, Taken request limit session (.attempted faults ending) := by
  induction limit generalizing session with
  | zero =>
      cases answered : session.peer.answerAt 0 with
      | reply reply => exact ⟨[], .replied reply, taken_of_reply request 0 connected answered⟩
      | fault fault => exact ⟨[], .exhausted fault, taken_of_exhausted request connected answered⟩
  | succ limit ih =>
      cases answered : session.peer.answerAt 0 with
      | reply reply =>
          exact ⟨[], .replied reply, taken_of_reply request (limit + 1) connected answered⟩
      | fault fault =>
          cases refused : session.peer.refusalAt 0 with
          | some refusal =>
              exact ⟨[], .refused fault refusal,
                taken_of_refused request limit connected answered refused⟩
          | none =>
              obtain ⟨faults, ending, later⟩ :=
                ih (session.retried request fault) connected
              exact ⟨fault :: faults, ending, later.retried connected answered refused⟩

/-- A course taken over a connection that was opened for the request. -/
theorem Taken.opened {request : Request} {limit : Nat} {session : Session}
    {faults : List Fault} {ending : Ending} (unconnected : session.isConnected = false)
    (accepted : session.peer.refusalAt 0 = none)
    (later : Taken request limit session.opened (.attempted faults ending)) :
    Taken request limit session (.attempted faults ending) where
  fits := by
    obtain ⟨faulted, accepts, fits⟩ := later.fits
    simp only [Session.lazyConnects, Session.opened, if_true, Nat.zero_add] at accepts fits
    refine ⟨?_, ?_, ?_⟩
    · simpa [Peer.FaultsWith, Session.opened] using faulted
    · simpa [Session.lazyConnects, unconnected, Nat.add_comm] using accepts.succ accepted
    · simpa [Session.lazyConnects, unconnected] using fits.lazily
  sends := by
    rw [Session.sendRetrying_of_opened request limit unconnected accepted, later.sends]
    simp [outcome, after, events, Session.opened, Session.lazyConnects, Session.openingEvents,
      unconnected, Nat.add_assoc]

/-- Every request takes a course that the other side allows. -/
theorem exists_taken (request : Request) (limit : Nat) (session : Session) :
    ∃ course, Taken request limit session course := by
  by_cases connected : session.isConnected = true
  · obtain ⟨faults, ending, taken⟩ := exists_taken_of_connected request limit session connected
    exact ⟨.attempted faults ending, taken⟩
  · have unconnected : session.isConnected = false := by simpa using connected
    cases refused : session.peer.refusalAt 0 with
    | some refusal =>
        refine ⟨.unreached refusal, ⟨unconnected, refused⟩, ?_⟩
        rw [Session.sendRetrying_of_unreached request limit unconnected refused]
        simp [outcome, after, events]
    | none =>
        obtain ⟨faults, ending, later⟩ :=
          exists_taken_of_connected request limit session.opened rfl
        exact ⟨.attempted faults ending, later.opened unconnected refused⟩

/-- Of two courses that fit, neither attempts more than the other. -/
private theorem length_le_of_fits {session : Session} {limit : Nat} {faults others : List Fault}
    {ending other : Ending} (fits : (attempted faults ending).Fits session limit)
    (fitsToo : (attempted others other).Fits session limit) :
    others.length ≤ faults.length := by
  obtain ⟨-, -, ends⟩ := fits
  obtain ⟨faulted, accepts, endsToo⟩ := fitsToo
  refine Nat.le_of_not_lt fun shorter => ?_
  have answered := faulted faults.length shorter
  have within : others.length ≤ limit := endsToo.number_le
  cases ending with
  | replied reply => simp [ends.2] at answered
  | exhausted fault =>
      have last : faults.length = limit := ends.1
      omega
  | refused fault refusal =>
      have accepted := accepts (session.lazyConnects + faults.length) (by omega)
      simp [ends.2.2] at accepted

/-- The other side allows one course only. A connection refused before the first attempt leaves no
attempt to any other. -/
theorem Fits.unique {session : Session} {limit : Nat} {course other : Course}
    (fits : course.Fits session limit) (fitsToo : other.Fits session limit) : course = other := by
  have unreachable {refusal : Fault} {faults : List Fault} {ending : Ending}
      (unreached : (Course.unreached refusal).Fits session limit)
      (attempted : (Course.attempted faults ending).Fits session limit) : False := by
    have opens : session.lazyConnects = 1 := by simp [Session.lazyConnects, unreached.1]
    have accepted := attempted.2.1 0 (by omega)
    simp [unreached.2] at accepted
  cases course with
  | unreached refusal =>
      cases other with
      | unreached refusalToo =>
          have same := fits.2.symm.trans fitsToo.2
          injection same with same
          rw [same]
      | attempted others ending => exact (unreachable fits fitsToo).elim
  | attempted faults ending =>
      cases other with
      | unreached refusal => exact (unreachable fitsToo fits).elim
      | attempted others endingToo =>
          have long : faults.length = others.length :=
            Nat.le_antisymm (length_le_of_fits fitsToo fits) (length_le_of_fits fits fitsToo)
          have same : faults = others := by
            refine List.ext_getElem long fun number h hToo => ?_
            have answered := (fits.1 number h).symm.trans (fitsToo.1 number hToo)
            injection answered
          subst same
          rw [Ending.Fits.unique fits.2.2 fitsToo.2.2]

end Course

end Errand.Remote
