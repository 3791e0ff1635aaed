/-
# Bounded retry

A call makes one attempt more than it has retries, at most. What it gives, and what it
leaves behind, is settled by the course that the other side allows: the first answer that
is not a fault, unless the retries run out or a connection is refused before it comes.
-/
import Errand.Proofs.Remote.Life

namespace Errand.Remote

/-- Faults that are retried leave one attempt each. -/
theorem countP_retryEvents (request : Request) (retries : Nat) (faults : List Fault) :
    (retryEvents request retries faults).countP Event.isAttempt = faults.length := by
  induction faults generalizing retries with
  | nil => rfl
  | cons fault faults ih => simp [retryEvents, List.countP_cons, Event.isAttempt, ih]

/-- Every attempt among the retried ones sends the same request. -/
theorem request_of_mem_retryEvents {request other : Request} {answer : Answer} {retries : Nat}
    {faults : List Fault} (sent : .sent other answer ∈ retryEvents request retries faults) :
    other = request := by
  induction faults generalizing retries with
  | nil => simp [retryEvents] at sent
  | cons fault faults ih =>
      simp only [retryEvents, List.cons_append, List.nil_append, List.mem_cons, reduceCtorEq,
        Event.sent.injEq, false_or] at sent
      rcases sent with ⟨same, -⟩ | later
      · exact same
      · exact ih later

/-- Between an attempt and the next the first has faulted, its connection has been closed and
one new connection opened, and nothing else has happened. -/
def Renews (events : List Event) : Prop :=
  ∀ before request answer between other otherAnswer later,
    events = before ++ .sent request answer :: (between ++ .sent other otherAnswer :: later) →
    (∀ event ∈ between, event.isAttempt = false) →
    ∃ attempt fault, answer = .fault fault ∧
      between = [.retrying attempt fault, .closed false, .connected]

/-- What comes before the first attempt is not between two attempts. -/
theorem Renews.append_silent {events silent : List Event}
    (noAttempt : ∀ event ∈ silent, event.isAttempt = false) (renews : Renews events) :
    Renews (silent ++ events) := by
  induction silent with
  | nil => exact renews
  | cons event silent ih =>
      obtain ⟨here, behind⟩ := List.forall_mem_cons.mp noAttempt
      intro before request answer between other otherAnswer later same clean
      cases before with
      | nil =>
          obtain ⟨rfl, -⟩ := List.cons.inj same
          cases here
      | cons first before =>
          exact ih behind before request answer between other otherAnswer later
            (List.cons.inj same).2 clean

/-- One attempt has no other to be renewed for. -/
theorem renews_attempt {silent : List Event} (request : Request) (answer : Answer)
    (noAttempt : ∀ event ∈ silent, event.isAttempt = false) :
    Renews (.sent request answer :: silent) := by
  intro before first firstAnswer between other otherAnswer later same clean
  have once : silent.countP Event.isAttempt = 0 :=
    List.countP_eq_zero.mpr fun event member => by simp [noAttempt event member]
  have counted := congrArg (List.countP Event.isAttempt) same
  simp only [List.countP_cons, List.countP_append, Event.isAttempt, once, if_true] at counted
  omega

/-- The events before the next attempt are all that come before it and are none. -/
theorem eq_of_append_attempt {between silent later others : List Event} {request other : Request}
    {answer otherAnswer : Answer} (clean : ∀ event ∈ between, event.isAttempt = false)
    (cleanToo : ∀ event ∈ silent, event.isAttempt = false)
    (same : between ++ .sent request answer :: later =
      silent ++ .sent other otherAnswer :: others) : between = silent := by
  have taken {quiet rest : List Event} {request : Request} {answer : Answer}
      (clean : ∀ event ∈ quiet, event.isAttempt = false) :
      (quiet ++ .sent request answer :: rest).takeWhile (!·.isAttempt) = quiet := by
    rw [List.takeWhile_append_of_pos fun event member => by simp [clean event member]]
    simp [Event.isAttempt]
  rw [← taken clean, same, taken cleanToo]

/-- A fault with a retry left is renewed for the attempt behind it. -/
theorem Renews.retried {request other : Request} {answer : Answer} {events : List Event}
    (attempt : Nat) (fault : Fault) (renews : Renews (.sent other answer :: events)) :
    Renews (.sent request (.fault fault) :: ([.retrying attempt fault, .closed false, .connected] ++
      .sent other answer :: events)) := by
  have silent : ∀ event ∈ [Event.retrying attempt fault, .closed false, .connected],
      event.isAttempt = false := by simp [Event.isAttempt]
  intro before first firstAnswer between second secondAnswer later same clean
  cases before with
  | nil =>
      obtain ⟨sent, behind⟩ := List.cons.inj same
      obtain ⟨rfl, rfl⟩ := Event.sent.inj sent
      exact ⟨attempt, fault, rfl, eq_of_append_attempt clean silent behind.symm⟩
  | cons event before =>
      exact renews.append_silent silent before first firstAnswer between second secondAnswer later
        (List.cons.inj same).2 clean

/-- Every attempt of a request but the first has a connection that replaced the one before. -/
theorem renews_attempts (request : Request) (retries number : Nat) (faults : List Fault)
    (ending : Ending) :
    ∃ answer later, retryEvents request retries faults ++ ending.events request number =
      .sent request answer :: later ∧ Renews (.sent request answer :: later) := by
  induction faults generalizing retries with
  | nil =>
      cases ending with
      | replied reply => exact ⟨.reply reply, [], rfl, renews_attempt _ _ (by simp)⟩
      | exhausted fault =>
          exact ⟨.fault fault, _, rfl, renews_attempt _ _ (by simp [Event.isAttempt])⟩
      | refused fault refusal =>
          exact ⟨.fault fault, _, rfl, renews_attempt _ _ (by simp [Event.isAttempt])⟩
  | cons fault faults ih =>
      obtain ⟨answer, later, same, renews⟩ := ih (retries + 1)
      refine ⟨.fault fault, _, ?_, renews.retried (retries + 1) fault⟩
      rw [retryEvents, List.append_assoc, same]
      rfl

namespace Course

/-- A course takes one attempt more than it has retries, at most. -/
theorem countP_events_le (request : Request) {session : Session} {limit : Nat} {course : Course}
    (fits : course.Fits session limit) :
    (course.events request session).countP Event.isAttempt ≤ limit + 1 := by
  cases course with
  | unreached refusal => simp [events, Event.isAttempt]
  | attempted faults ending =>
      have within : faults.length ≤ limit := fits.2.2.number_le
      have opening : session.openingEvents.countP Event.isAttempt = 0 := by
        refine List.countP_eq_zero.mpr fun event member => ?_
        rw [Session.isAttempt_of_mem_openingEvents member]
        exact Bool.false_ne_true
      have last : (ending.events request (session.retryCount + faults.length)).countP
          Event.isAttempt = 1 := by
        cases ending <;> rfl
      rw [events, List.countP_append, List.countP_append, opening, last, countP_retryEvents]
      omega

/-- Every attempt of a course sends the same request. -/
theorem request_of_mem_events {request other : Request} {answer : Answer} {session : Session}
    {course : Course} (sent : .sent other answer ∈ course.events request session) :
    other = request := by
  cases course with
  | unreached refusal => simp [events] at sent
  | attempted faults ending =>
      simp only [events, List.mem_append] at sent
      rcases sent with opening | retried | last
      · cases Session.isAttempt_of_mem_openingEvents opening
      · exact request_of_mem_retryEvents retried
      · cases ending <;> simp_all [Ending.events]

/-- A course renews the connection between two attempts. -/
theorem renews_events (request : Request) (session : Session) (course : Course) :
    Renews (course.events request session) := by
  cases course with
  | unreached refusal =>
      intro before first answer between other otherAnswer later same
      simp [events, List.cons_eq_append_iff] at same
  | attempted faults ending =>
      obtain ⟨answer, later, same, renews⟩ := renews_attempts request session.retryCount
        (session.retryCount + faults.length) faults ending
      rw [events, same]
      exact renews.append_silent fun _ => Session.isAttempt_of_mem_openingEvents

end Course

namespace Session

variable {session : Session} {call : Run.Call} {options : Run.Options}

/-- The course that the other side allows is the one that a call takes. -/
theorem run_of_fits {course : Course} (atRest : session.retryCount = 0)
    (fits : course.Fits session session.maxRetries) :
    session.run call options = ((course.outcome session).map (resultOf · call),
      course.after (requestOf options call) (session.note (.called call options))) := by
  obtain ⟨taken, fitsToo, runs⟩ := session.exists_course_of_run call options
  rw [atRest, Nat.sub_zero] at fitsToo
  rw [runs, fitsToo.unique fits]

/-- What a call gives tells the course that it took. -/
theorem exists_course_of_outcome {outcome : Except ConnectionFault Run.Result}
    (atRest : session.retryCount = 0) (gives : (session.run call options).1 = outcome) :
    ∃ course : Course, course.Fits session session.maxRetries ∧
      (course.outcome session).map (resultOf · call) = outcome := by
  obtain ⟨course, fits, runs⟩ := session.exists_course_of_run call options
  rw [atRest, Nat.sub_zero] at fits
  exact ⟨course, fits, by rw [← gives, runs]⟩

/-- A call gives a result exactly when an attempt within its bound is answered. -/
theorem run_eq_ok_iff (atRest : session.retryCount = 0) {result : Run.Result} :
    (session.run call options).1 = .ok result ↔
      ∃ faults reply, (Course.attempted faults (.replied reply)).Fits session session.maxRetries ∧
        resultOf reply call = result := by
  constructor
  · intro gives
    obtain ⟨course, fits, same⟩ := exists_course_of_outcome atRest gives
    obtain ⟨faults, reply, rfl, read⟩ := Course.exists_of_outcome_ok same
    exact ⟨faults, reply, fits, read⟩
  · rintro ⟨faults, reply, fits, rfl⟩
    rw [run_of_fits atRest fits]
    rfl

/-- A call gives up exactly when its last attempt faults and no retry is left. -/
theorem run_eq_retriesExhausted_iff (atRest : session.retryCount = 0) {remote : Text}
    {retries : Nat} {fault : Fault} :
    (session.run call options).1 = .error (.retriesExhausted remote retries fault) ↔
      remote = session.remote ∧ retries = session.maxRetries ∧
        ∃ faults, (Course.attempted faults (.exhausted fault)).Fits session session.maxRetries := by
  constructor
  · intro gives
    obtain ⟨course, fits, same⟩ := exists_course_of_outcome atRest gives
    obtain ⟨faults, rfl, rfl, rfl⟩ := Course.exists_of_outcome_retriesExhausted same
    have counted : faults.length = session.maxRetries := fits.2.2.1
    exact ⟨rfl, by rw [atRest, counted, Nat.zero_add], faults, fits⟩
  · rintro ⟨rfl, rfl, faults, fits⟩
    have counted : faults.length = session.maxRetries := fits.2.2.1
    rw [run_of_fits atRest fits]
    simp [Course.outcome, Ending.outcome, Except.map, atRest, counted]

/-- A call cannot connect exactly when the connection before its first attempt is refused,
or one that would replace the connection of a fault. -/
theorem run_eq_cannotConnect_iff (atRest : session.retryCount = 0) {remote : Text}
    {refusal : Fault} :
    (session.run call options).1 = .error (.cannotConnect remote refusal) ↔
      remote = session.remote ∧
        ((Course.unreached refusal).Fits session session.maxRetries ∨ ∃ faults fault,
          (Course.attempted faults (.refused fault refusal)).Fits session session.maxRetries) := by
  constructor
  · intro gives
    obtain ⟨course, fits, same⟩ := exists_course_of_outcome atRest gives
    obtain ⟨rfl, rfl | ⟨faults, fault, rfl⟩⟩ := Course.exists_of_outcome_cannotConnect same
    · exact ⟨rfl, .inl fits⟩
    · exact ⟨rfl, .inr ⟨faults, fault, fits⟩⟩
  · rintro ⟨rfl, fits | ⟨faults, fault, fits⟩⟩
    · rw [run_of_fits atRest fits]
      rfl
    · rw [run_of_fits atRest fits]
      rfl

/-- A call that gives up names its bound and its last fault, and does nothing after it. -/
theorem giving_up_of_retriesExhausted (atRest : session.retryCount = 0) {remote : Text}
    {retries : Nat} {fault : Fault}
    (gives : (session.run call options).1 = .error (.retriesExhausted remote retries fault)) :
    (ConnectionFault.retriesExhausted remote retries fault).message =
        session.remote.toString ++ " failed after " ++ toString session.maxRetries ++
          " retries: " ++ Text.toString fault ∧
      ∃ earlier, (session.run call options).2.trace =
        earlier ++ [.sent (requestOf options call) (.fault fault), .gaveUp retries fault] := by
  obtain ⟨rfl, rfl, faults, fits⟩ := (run_eq_retriesExhausted_iff atRest).mp gives
  have counted : faults.length = session.maxRetries := fits.2.2.1
  rw [run_of_fits atRest fits]
  refine ⟨rfl, session.trace ++ [.called call options] ++ session.openingEvents ++
    retryEvents (requestOf options call) 0 faults, ?_⟩
  simp [Course.after, Course.events, Ending.events, note, openingEvents, atRest, counted]

/-- A call that cannot connect names the refusal, and does nothing after it. -/
theorem stopping_of_cannotConnect (atRest : session.retryCount = 0) {remote : Text}
    {refusal : Fault}
    (gives : (session.run call options).1 = .error (.cannotConnect remote refusal)) :
    (ConnectionFault.cannotConnect remote refusal).message =
        "cannot connect to " ++ session.remote.toString ++ ": " ++ Text.toString refusal ∧
      ∃ earlier, (session.run call options).2.trace = earlier ++ [.refused refusal] := by
  obtain ⟨rfl, fits | ⟨faults, fault, fits⟩⟩ := (run_eq_cannotConnect_iff atRest).mp gives
  · rw [run_of_fits atRest fits]
    exact ⟨rfl, session.trace ++ [.called call options], rfl⟩
  · rw [run_of_fits atRest fits]
    refine ⟨rfl, session.trace ++ [.called call options] ++ session.openingEvents ++
      retryEvents (requestOf options call) 0 faults ++
      [.sent (requestOf options call) (.fault fault), .retrying (faults.length + 1) fault,
        .closed false], ?_⟩
    simp [Course.after, Course.events, Ending.events, note, openingEvents, atRest]

/-- The first answer over an open connection settles a call if it is no fault. -/
theorem run_of_reply {calm : Session} {reply : Reply} (connected : calm.isConnected = true)
    (answered : calm.peer.answerAt 0 = .reply reply) :
    (calm.run call options).1 = .ok (resultOf reply call) := by
  have connectedToo : (calm.note (.called call options)).isConnected = true := connected
  rw [run, sendRetrying_of_reply _ _ connectedToo answered]
  rfl

/-- What a call hands over: its command with the search path set up in front, with payload and stream,
or its lines and a last one that passes on their status, with the timeout. -/
inductive HandsOver (options : Run.Options) : Run.Call → Request → Prop
  | one (command : Text) : HandsOver options (.one command) (.exec
    ("export PATH=$PATH:/usr/local/sbin:/usr/local/bin:/usr/sbin:/usr/bin:/sbin:/bin; ".toList ++
      command) options.input options.blockOn)
  | many (commands : List Text) : HandsOver options (.many commands)
    (.shell (commands ++ ["exit $?".toList]) options.timeout)

theorem handsOver_requestOf (options : Run.Options) (call : Run.Call) :
    HandsOver options call (requestOf options call) := by
  cases call with
  | one command => exact .one command
  | many commands => exact .many commands

/-- A call at rest, in closed form: it takes the one course that the other side allows, of
at most one attempt more than it has retries, all for the same request and each over a
connection that replaced the one before. It gives what the first answer that is no fault
gives by itself, if that answer comes in time and no connection is refused before; otherwise
it gives up on the last fault, or cannot connect, and nothing follows. No retry is counted
between calls. -/
theorem run_closed_form (session : Session) (call : Run.Call) (options : Run.Options)
    (atRest : session.retryCount = 0) :
    HandsOver options call (requestOf options call) ∧
    (∃ course : Course, course.Fits session session.maxRetries ∧
      session.run call options = ((course.outcome session).map (resultOf · call),
        course.after (requestOf options call) (session.note (.called call options))) ∧
      (course.events (requestOf options call) session).countP Event.isAttempt ≤
        session.maxRetries + 1 ∧
      (∀ request answer, .sent request answer ∈ course.events (requestOf options call) session →
        request = requestOf options call) ∧
      Renews (course.events (requestOf options call) session)) ∧
    (∀ result, (session.run call options).1 = .ok result ↔ ∃ faults reply,
      (Course.attempted faults (.replied reply)).Fits session session.maxRetries ∧
        resultOf reply call = result) ∧
    (∀ faults reply, (Course.attempted faults (.replied reply)).Fits session session.maxRetries →
      ∀ calm : Session, calm.isConnected = true → calm.peer.answerAt 0 = .reply reply →
        (session.run call options).1 = (calm.run call options).1) ∧
    (∀ remote retries fault,
      (session.run call options).1 = .error (.retriesExhausted remote retries fault) ↔
        remote = session.remote ∧ retries = session.maxRetries ∧ ∃ faults,
          (Course.attempted faults (.exhausted fault)).Fits session session.maxRetries) ∧
    (∀ remote retries fault,
      (session.run call options).1 = .error (.retriesExhausted remote retries fault) →
        (ConnectionFault.retriesExhausted remote retries fault).message =
            session.remote.toString ++ " failed after " ++ toString session.maxRetries ++
              " retries: " ++ Text.toString fault ∧
          ∃ earlier, (session.run call options).2.trace =
            earlier ++ [.sent (requestOf options call) (.fault fault), .gaveUp retries fault]) ∧
    (∀ remote refusal,
      (session.run call options).1 = .error (.cannotConnect remote refusal) ↔
        remote = session.remote ∧
          ((Course.unreached refusal).Fits session session.maxRetries ∨ ∃ faults fault,
            (Course.attempted faults (.refused fault refusal)).Fits session
              session.maxRetries)) ∧
    (∀ remote refusal,
      (session.run call options).1 = .error (.cannotConnect remote refusal) →
        (ConnectionFault.cannotConnect remote refusal).message =
            "cannot connect to " ++ session.remote.toString ++ ": " ++ Text.toString refusal ∧
          ∃ earlier, (session.run call options).2.trace = earlier ++ [.refused refusal]) ∧
    (∀ steps, ((session.run call options).2.performAll steps).retryCount = 0) ∧
    ∀ id remote maxRetries peer, (start id remote maxRetries peer).2.retryCount = 0 := by
  obtain ⟨course, fits, runs⟩ := session.exists_course_of_run call options
  rw [atRest, Nat.sub_zero] at fits
  refine ⟨handsOver_requestOf options call,
    ⟨course, fits, runs, Course.countP_events_le _ fits,
      fun _ _ => Course.request_of_mem_events, Course.renews_events _ session course⟩,
    fun _ => run_eq_ok_iff atRest, ?_,
    fun _ _ _ => run_eq_retriesExhausted_iff atRest,
    fun _ _ _ => giving_up_of_retriesExhausted atRest,
    fun _ _ => run_eq_cannotConnect_iff atRest,
    fun _ _ => stopping_of_cannotConnect atRest,
    fun steps => performAll_retryCount steps (run_retryCount call options atRest),
    start_retryCount⟩
  intro faults reply answeredInTime calm connected answered
  rw [run_of_reply connected answered]
  exact (run_eq_ok_iff atRest).mpr ⟨faults, reply, answeredInTime, rfl⟩

/-- A session whose next two requests fault and whose third is answered. -/
def flaky : Session :=
  ⟨.first, "omm@db01:22".toList, false, 0, 2,
    ⟨[none, none], [.fault "reset".toList, .fault "reset".toList,
      .reply ⟨Utf8.encode "up\n".toList, [], some 0, false⟩]⟩, []⟩

/-- The course of a call on it: two retries, then the answer. -/
theorem flaky_fits : (Course.attempted ["reset".toList, "reset".toList]
    (.replied ⟨Utf8.encode "up\n".toList, [], some 0, false⟩)).Fits flaky flaky.maxRetries := by
  refine ⟨?_, ?_, by decide, rfl⟩
  · intro number h
    match number, h with
    | 0, _ => rfl
    | 1, _ => rfl
  · intro number h
    match number, h with
    | 0, _ => rfl
    | 1, _ => rfl
    | 2, _ => rfl

/-- The requests that a session has sent. -/
def requests (session : Session) : List Request :=
  session.trace.filterMap fun
    | .sent request _ => some request
    | _ => none

/-- With two retries and two faults the third answer counts, and a command or a list is sent three
times. -/
theorem flaky_run_uptime :
    let options := (Run.Options.empty.withTimeoutSecs 5).withInput [0x0A]
    let command := flaky.run (.one "uptime".toList) options
    let lines := flaky.run (.many ["uptime".toList]) options
    flaky.retryCount = 0 ∧
      command.1 = .ok ⟨"up".toList, [], some 0, false⟩ ∧
      command.2.requests = List.replicate 3 (.exec
        "export PATH=$PATH:/usr/local/sbin:/usr/local/bin:/usr/sbin:/usr/bin:/sbin:/bin; uptime".toList
        (some [0x0A]) .output) ∧
      lines.1 = .ok ⟨"up".toList, [], some 0, false⟩ ∧
      lines.2.requests = List.replicate 3
        (.shell ["uptime".toList, "exit $?".toList] (some (.ofSecs 5))) := by
  intro options command lines
  obtain ⟨-, -, commandGives, -⟩ := run_closed_form flaky (.one "uptime".toList) options rfl
  obtain ⟨-, -, linesGive, -⟩ := run_closed_form flaky (.many ["uptime".toList]) options rfl
  refine ⟨rfl, (commandGives _).mpr ⟨_, _, flaky_fits, ?_⟩, ?_,
    (linesGive _).mpr ⟨_, _, flaky_fits, ?_⟩, ?_⟩ <;> decide +kernel

end Session

end Errand.Remote
