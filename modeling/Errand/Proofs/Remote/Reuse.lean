/-
# Faulted connections

A fault with a retry left replaces the connection. The fault that ends a call does not: the
connection stays, and a call that comes next is sent over it. This module says exactly in
which runs a request is sent over a connection that has faulted: in those where a call
follows one that gave up, with nothing between them.
-/
import Errand.Proofs.Remote.Life

namespace Errand.Remote

/-- The connection opened last has carried a fault. -/
def HasFaulted (events : List Event) : Prop :=
  ∃ before request fault later,
    events = before ++ .sent request (.fault fault) :: later ∧ .connected ∉ later

/-- A request is sent over a connection that has carried a fault before. -/
def Reuses (events : List Event) : Prop :=
  ∃ before request answer, before ++ [.sent request answer] <+: events ∧ HasFaulted before

/-- A fault taints the connection and a new connection is clean; nothing else matters. -/
theorem hasFaulted_concat {events : List Event} {event : Event} :
    HasFaulted (events ++ [event]) ↔
      (∃ request fault, event = .sent request (.fault fault)) ∨
        event ≠ .connected ∧ HasFaulted events := by
  constructor
  · rintro ⟨before, request, fault, later, same, clean⟩
    rcases List.eq_nil_or_concat later with rfl | ⟨earlier, last, rfl⟩
    · obtain ⟨-, last⟩ := List.append_inj' same rfl
      exact .inl ⟨request, fault, by simpa using last⟩
    · have split : events ++ [event] =
          (before ++ .sent request (.fault fault) :: earlier) ++ [last] := by simpa using same
      obtain ⟨rfl, same⟩ := List.append_inj' split rfl
      obtain rfl : event = last := by simpa using same
      simp only [List.concat_eq_append, List.mem_append, List.mem_singleton, not_or] at clean
      exact .inr ⟨fun connected => clean.2 connected.symm,
        before, request, fault, earlier, rfl, clean.1⟩
  · rintro (⟨request, fault, rfl⟩ | ⟨other, before, request, fault, later, rfl, clean⟩)
    · exact ⟨events, request, fault, [], rfl, List.not_mem_nil⟩
    · refine ⟨before, request, fault, later ++ [event], by simp, ?_⟩
      simp only [List.mem_append, List.mem_singleton, not_or]
      exact ⟨clean, fun connected => other connected.symm⟩

theorem not_reuses_nil : ¬ Reuses [] := by
  rintro ⟨before, request, answer, earlier, -⟩
  simp at earlier

/-- Only an attempt over a connection that has faulted adds a reuse. -/
theorem reuses_concat {events : List Event} {event : Event} :
    Reuses (events ++ [event]) ↔
      Reuses events ∨ (∃ request answer, event = .sent request answer) ∧ HasFaulted events := by
  constructor
  · rintro ⟨before, request, answer, earlier, faulted⟩
    rcases List.prefix_concat_iff.mp earlier with same | earlier
    · obtain ⟨rfl, last⟩ := List.append_inj' same rfl
      exact .inr ⟨⟨request, answer, by simpa using last.symm⟩, faulted⟩
    · exact .inl ⟨before, request, answer, earlier, faulted⟩
  · rintro (⟨before, request, answer, earlier, faulted⟩ | ⟨⟨request, answer, rfl⟩, faulted⟩)
    · exact ⟨before, request, answer, earlier.trans (List.prefix_append _ _), faulted⟩
    · exact ⟨events, request, answer, List.prefix_rfl, faulted⟩

/-- Events that are no attempts reuse nothing. -/
theorem reuses_append_silent {events silent : List Event}
    (noAttempt : ∀ event ∈ silent, event.isAttempt = false) :
    Reuses (events ++ silent) ↔ Reuses events := by
  induction silent generalizing events with
  | nil => rw [List.append_nil]
  | cons event silent ih =>
      obtain ⟨here, behind⟩ := List.forall_mem_cons.mp noAttempt
      have notSent : ¬ ∃ request answer, event = .sent request answer := by
        rintro ⟨request, answer, rfl⟩
        cases here
      rw [List.append_cons, ih behind, reuses_concat]
      simp [notSent]

/-- An attempt reuses a connection exactly if that has faulted, whatever else follows. -/
theorem reuses_attempt {events silent : List Event} (request : Request) (answer : Answer)
    (noAttempt : ∀ event ∈ silent, event.isAttempt = false) :
    Reuses (events ++ .sent request answer :: silent) ↔ Reuses events ∨ HasFaulted events := by
  rw [List.append_cons, reuses_append_silent noAttempt, reuses_concat]
  simp

/-- A fault with a retry left is followed by a new connection, which is clean. -/
theorem not_hasFaulted_retried (request : Request) (attempt : Nat) (fault : Fault)
    (events : List Event) :
    ¬ HasFaulted (events ++
      [.sent request (.fault fault), .retrying attempt fault, .closed false, .connected]) := by
  have renewed : events ++ [.sent request (.fault fault), .retrying attempt fault,
      .closed false, .connected] =
      (events ++ [.sent request (.fault fault), .retrying attempt fault, .closed false]) ++
        [.connected] := by simp
  rw [renewed, hasFaulted_concat]
  simp

/-- The last attempt is an attempt like any other. -/
theorem reuses_endingEvents (request : Request) (retries : Nat) (ending : Ending)
    (events : List Event) :
    Reuses (events ++ ending.events request retries) ↔ Reuses events ∨ HasFaulted events := by
  cases ending with
  | replied reply => exact reuses_attempt request (.reply reply) (by simp)
  | exhausted fault => exact reuses_attempt request (.fault fault) (by simp [Event.isAttempt])
  | refused fault refusal =>
      exact reuses_attempt request (.fault fault) (by simp [Event.isAttempt])

/-- The attempts of a request reuse a faulted connection with the first of them only: every
later one has a connection of its own. -/
theorem reuses_attempts (request : Request) (retries : Nat) (faults : List Fault)
    (ending : Ending) (events : List Event) :
    Reuses (events ++ (retryEvents request retries faults ++
      ending.events request (retries + faults.length))) ↔ Reuses events ∨ HasFaulted events := by
  induction faults generalizing retries events with
  | nil => exact reuses_endingEvents request retries ending events
  | cons fault faults ih =>
      let retried := events ++ [.sent request (.fault fault), .retrying (retries + 1) fault,
        .closed false, .connected]
      have reused : Reuses retried ↔ Reuses events ∨ HasFaulted events :=
        reuses_attempt request (.fault fault) (by simp [Event.isAttempt])
      have clean : ¬ HasFaulted retried :=
        not_hasFaulted_retried request (retries + 1) fault events
      have later := ih (retries + 1) retried
      have counted : retries + 1 + faults.length = retries + (fault :: faults).length := by
        rw [List.length_cons]; omega
      rw [counted] at later
      rw [retryEvents, List.append_assoc, ← List.append_assoc, later, reused]
      simp [clean]

/-- After faults that were all retried a connection is tainted only if there were none. -/
theorem HasFaulted.of_retryEvents {request : Request} {retries : Nat} {faults : List Fault}
    {events : List Event}
    (faulted : HasFaulted (events ++ retryEvents request retries faults)) :
    HasFaulted events := by
  induction faults generalizing retries events with
  | nil => rwa [retryEvents, List.append_nil] at faulted
  | cons fault faults ih =>
      rw [retryEvents, ← List.append_assoc] at faulted
      exact absurd (ih faulted) (not_hasFaulted_retried request (retries + 1) fault events)

/-- A request that is answered leaves a tainted connection only if it was tainted before. -/
theorem HasFaulted.of_replied {request : Request} {retries : Nat} {faults : List Fault}
    {reply : Reply} {events : List Event}
    (faulted : HasFaulted (events ++ (retryEvents request retries faults ++
      (Ending.replied reply).events request (retries + faults.length)))) : HasFaulted events := by
  rw [← List.append_assoc, Ending.events, hasFaulted_concat] at faulted
  rcases faulted with ⟨_, _, faultedLast⟩ | ⟨-, faultedBefore⟩
  · cases faultedLast
  · exact faultedBefore.of_retryEvents

/-- The fault that ends a request taints the connection. -/
theorem hasFaulted_of_exhausted (request : Request) (retries : Nat) (fault : Fault)
    (events : List Event) :
    HasFaulted (events ++ (Ending.exhausted fault).events request retries) :=
  ⟨events, request, fault, [.gaveUp retries fault], rfl, by simp⟩

namespace Session

/-- The connection that a session holds has faulted. -/
def IsTainted (session : Session) : Prop :=
  session.isConnected = true ∧ HasFaulted session.trace

/-- A call on a session ends with its retries used up. -/
def GivesUp (session : Session) (call : Run.Call) (options : Run.Options) : Prop :=
  ∃ remote retries fault,
    (session.run call options).1 = .error (.retriesExhausted remote retries fault)

variable {session : Session} (call : Run.Call) (options : Run.Options)

/-- Before its first attempt a call has a tainted connection only if it keeps one. -/
theorem hasFaulted_opening :
    HasFaulted (session.trace ++ [.called call options] ++ session.openingEvents) ↔
      session.IsTainted := by
  unfold openingEvents IsTainted
  cases connected : session.isConnected with
  | true => simp [hasFaulted_concat]
  | false =>
      rw [if_neg Bool.false_ne_true, hasFaulted_concat]
      simp

/-- Opening a connection for a call reuses none. -/
theorem reuses_opening :
    Reuses (session.trace ++ [.called call options] ++ session.openingEvents) ↔
      Reuses session.trace := by
  rw [reuses_append_silent fun _ => isAttempt_of_mem_openingEvents]
  exact reuses_append_silent (by simp [Event.isAttempt])

/-- The first attempt of a call reuses a tainted connection, and no other attempt does. -/
theorem reuses_run :
    Reuses (session.run call options).2.trace ↔ Reuses session.trace ∨ session.IsTainted := by
  obtain ⟨course, fits, runs⟩ := session.exists_course_of_run call options
  rw [runs, Course.after_trace, Course.events_note]
  cases course with
  | unreached refusal =>
      have clean : ¬ session.IsTainted := by simp [IsTainted, fits.1]
      simp only [note, Course.events, reuses_concat, clean]
      simp
  | attempted faults ending =>
      rw [Course.events, note, ← List.append_assoc, reuses_attempts, reuses_opening,
        hasFaulted_opening]

/-- A call that gives up leaves a tainted connection. -/
theorem isTainted_of_givesUp {call : Run.Call} {options : Run.Options}
    (givesUp : session.GivesUp call options) : (session.run call options).2.IsTainted := by
  obtain ⟨remote, retries, fault, gives⟩ := givesUp
  obtain ⟨course, fits, runs⟩ := session.exists_course_of_run call options
  rw [runs] at gives ⊢
  obtain ⟨faults, rfl, -, -⟩ := Course.exists_of_outcome_retriesExhausted gives
  refine ⟨rfl, ?_⟩
  rw [Course.after_trace, Course.events_note, Course.events, ← List.append_assoc,
    ← List.append_assoc]
  exact hasFaulted_of_exhausted _ _ fault _

/-- A call that does not give up leaves no tainted connection but one that it kept. -/
theorem givesUp_or_of_isTainted {call : Run.Call} {options : Run.Options}
    (tainted : (session.run call options).2.IsTainted) :
    session.GivesUp call options ∨ session.IsTainted := by
  obtain ⟨course, fits, runs⟩ := session.exists_course_of_run call options
  rw [runs] at tainted
  obtain ⟨connected, faulted⟩ := tainted
  cases course with
  | unreached refusal =>
      have unconnected : session.isConnected = false := fits.1
      simp [Course.after, note, unconnected] at connected
  | attempted faults ending =>
      cases ending with
      | replied reply =>
          rw [Course.after_trace, Course.events_note, Course.events, note,
            ← List.append_assoc] at faulted
          exact .inr ((hasFaulted_opening call options).mp faulted.of_replied)
      | refused fault refusal => simp [Course.after, Ending.leavesOpen] at connected
      | exhausted fault =>
          refine .inl ⟨session.remote, session.retryCount + faults.length, fault, ?_⟩
          rw [runs]
          rfl

theorem reuses_close : Reuses session.close.trace ↔ Reuses session.trace := by
  unfold close release
  split
  · exact reuses_append_silent (by simp [Event.isAttempt])
  · rfl

/-- Whether the first of some steps is a call. -/
def CallsFirst (steps : List Step) : Prop :=
  ∃ call options later, steps = .run call options :: later

/-- Among the steps a call follows one that gave up, with nothing between them. -/
def CallsAfterGivingUp (session : Session) (steps : List Step) : Prop :=
  ∃ earlier call options later, steps = earlier ++ .run call options :: later ∧
    (session.performAll earlier).GivesUp call options ∧ CallsFirst later

theorem callsAfterGivingUp_cons (step : Step) (steps : List Step) :
    session.CallsAfterGivingUp (step :: steps) ↔
      (∃ call options, step = .run call options ∧ session.GivesUp call options ∧
        CallsFirst steps) ∨ (session.perform step).CallsAfterGivingUp steps := by
  constructor
  · rintro ⟨earlier, call, options, later, same, givesUp, callsFirst⟩
    cases earlier with
    | nil =>
        obtain ⟨rfl, rfl⟩ := List.cons.inj same
        exact .inl ⟨call, options, rfl, givesUp, callsFirst⟩
    | cons first earlier =>
        obtain ⟨rfl, rfl⟩ := List.cons.inj same
        exact .inr ⟨earlier, call, options, later, rfl, givesUp, callsFirst⟩
  · rintro (⟨call, options, rfl, givesUp, callsFirst⟩ |
      ⟨earlier, call, options, later, rfl, givesUp, callsFirst⟩)
    · exact ⟨[], call, options, steps, rfl, givesUp, callsFirst⟩
    · exact ⟨step :: earlier, call, options, later, rfl, givesUp, callsFirst⟩

/-- Over a run, a reuse is there from the start, or the first step is a call over a tainted
connection, or a call follows one that gave up. The induction is on the steps, for every
session. -/
theorem reuses_performAll (session : Session) (steps : List Step) :
    Reuses (session.performAll steps).trace ↔
      Reuses session.trace ∨ (session.IsTainted ∧ CallsFirst steps) ∨
        session.CallsAfterGivingUp steps := by
  induction steps generalizing session with
  | nil =>
      have idle : ¬ CallsFirst [] := by
        rintro ⟨call, options, later, same⟩
        cases same
      have idleToo : ¬ session.CallsAfterGivingUp [] := by
        rintro ⟨earlier, call, options, later, same, -⟩
        simp at same
      simp [idle, idleToo]
  | cons step steps ih =>
      rw [performAll_cons, ih, callsAfterGivingUp_cons]
      cases step with
      | run call options =>
          have callsFirst : CallsFirst (.run call options :: steps) := ⟨call, options, steps, rfl⟩
          rw [perform, reuses_run]
          constructor
          · rintro ((reused | tainted) | ⟨tainted, callsNext⟩ | later)
            · exact .inl reused
            · exact .inr (.inl ⟨tainted, callsFirst⟩)
            · rcases givesUp_or_of_isTainted tainted with givesUp | taintedBefore
              · exact .inr (.inr (.inl ⟨call, options, rfl, givesUp, callsNext⟩))
              · exact .inr (.inl ⟨taintedBefore, callsFirst⟩)
            · exact .inr (.inr (.inr later))
          · rintro (reused | ⟨tainted, -⟩ | ⟨_, _, same, givesUp, callsNext⟩ | later)
            · exact .inl (.inl reused)
            · exact .inl (.inr tainted)
            · obtain ⟨rfl, rfl⟩ := Step.run.inj same
              exact .inr (.inl ⟨isTainted_of_givesUp givesUp, callsNext⟩)
            · exact .inr (.inr later)
      | close =>
          have clean : ¬ session.close.IsTainted := by simp [IsTainted, close_isConnected]
          have noCall : ¬ CallsFirst (.close :: steps) := by
            rintro ⟨call, options, later, same⟩
            cases same
          rw [perform, reuses_close]
          simp [clean, noCall]

/-- In the life of a session a request is sent over a connection that has faulted exactly if
a call follows one that gave up, with nothing between them. In every other run the attempt
after a fault has a connection that was opened after the fault. -/
theorem reuses_iff_calls_after_giving_up (id : SessionId) (remote : Text) (maxRetries : Nat)
    (peer : Peer) (steps : List Step) :
    let session := (start id remote maxRetries peer).2
    Reuses (session.performAll steps).trace ↔
      ∃ earlier call options call' options' later,
        steps = earlier ++ .run call options :: .run call' options' :: later ∧
          ∃ remote retries fault, ((session.performAll earlier).run call options).1 =
            .error (.retriesExhausted remote retries fault) := by
  intro session
  have clean : ¬ Reuses session.trace ∧ ¬ session.IsTainted := by
    cases opened : (idle id remote maxRetries peer).peer.refusalAt 0 with
    | some refusal =>
        have begun : session = _ := congrArg Prod.snd (reconnect_of_refused opened)
        have trace : session.trace = [] ++ [.refused refusal] := by rw [begun]; rfl
        refine ⟨?_, ?_⟩
        · rw [trace, reuses_append_silent (by simp [Event.isAttempt])]
          exact not_reuses_nil
        · rw [IsTainted, begun]
          simp
    | none =>
        have begun : session = _ := congrArg Prod.snd (reconnect_of_accepted opened)
        have trace : session.trace = [] ++ [.connected] := by rw [begun]; rfl
        refine ⟨?_, ?_⟩
        · rw [trace, reuses_append_silent (by simp [Event.isAttempt])]
          exact not_reuses_nil
        · rw [IsTainted, trace, hasFaulted_concat]
          simp
  have reuses := reuses_performAll session steps
  simp only [clean.1, clean.2, false_and, false_or] at reuses
  rw [reuses]
  constructor
  · rintro ⟨earlier, call, options, _, rfl, givesUp, call', options', later, rfl⟩
    exact ⟨earlier, call, options, call', options', later, rfl, givesUp⟩
  · rintro ⟨earlier, call, options, call', options', later, rfl, givesUp⟩
    exact ⟨earlier, call, options, _, rfl, givesUp, call', options', later, rfl⟩

/-- With no retry allowed, the second of two calls is sent over the connection that broke
under the first. -/
theorem broken_pipe_reuses :
    let peer : Peer := ⟨[], [.fault "broken pipe".toList]⟩
    let session := (start .first "omm@db01:22".toList 0 peer).2
    let call : Run.Call := .one "uptime".toList
    Reuses (session.performAll [.run call .empty, .run call .empty]).trace := by
  intro peer session call
  let request := requestOf .empty call
  let broken : List Event := [.connected, .called call .empty,
    .sent request (.fault "broken pipe".toList), .gaveUp 0 "broken pipe".toList,
    .called call .empty]
  have happened : (session.performAll [.run call .empty, .run call .empty]).trace =
      broken ++ [.sent request (.reply .quiet)] := rfl
  have faulted : HasFaulted broken :=
    ⟨[.connected, .called call .empty], request, "broken pipe".toList,
      [.gaveUp 0 "broken pipe".toList, .called call .empty], rfl, by simp⟩
  exact ⟨broken, request, .reply .quiet, happened ▸ List.prefix_rfl, faulted⟩

end Session

end Errand.Remote
