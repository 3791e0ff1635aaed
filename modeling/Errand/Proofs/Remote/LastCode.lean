/-
# Whose exit code a thread reads

A thread that asks for the last exit code of a session reads what the latest of its own calls on
that session reported, whatever other threads did on that session or it did on others. Only
calls report codes: those that end with a reply that carries a status and was not cut short.

A session that is dropped is forgotten by the thread that drops it and by no other, so entries
of ended sessions stay behind. They are never read again, since their numbers are not.
-/
import Errand.Proofs.Remote.Numbers

namespace Errand.Remote

namespace ExitCodes

theorem code?_cons (key : ThreadId × SessionId) (code : Int) (codes : ExitCodes)
    (reader : ThreadId) (id : SessionId) :
    code? ((key, code) :: codes) reader id =
      if (reader, id) = key then some code else codes.code? reader id := by
  rw [code?, List.lookup_cons]
  by_cases same : (reader, id) = key
  · rw [if_pos same, beq_iff_eq.mpr same]
  · rw [if_neg same, beq_eq_false_iff_ne.mpr same, code?]

/-- What is forgotten is gone, and nothing else is. -/
theorem code?_forget (codes : ExitCodes) (thread reader : ThreadId) (id other : SessionId) :
    (codes.forget thread id).code? reader other =
      if (reader, other) = (thread, id) then none else codes.code? reader other := by
  induction codes with
  | nil => simp [forget, code?]
  | cons entry codes ih =>
      obtain ⟨key, code⟩ := entry
      by_cases dropped : key = (thread, id)
      · have forgotten : forget ((key, code) :: codes) thread id = forget codes thread id := by
          simp [forget, dropped]
        rw [forgotten, ih, code?_cons, dropped]
        split <;> rfl
      · have kept : forget ((key, code) :: codes) thread id =
            (key, code) :: forget codes thread id := by
          simp [forget, dropped]
        rw [kept, code?_cons, code?_cons, ih]
        by_cases found : (reader, other) = key
        · rw [if_pos found, found, if_neg dropped, if_pos rfl]
        · rw [if_neg found, if_neg found]

/-- What is remembered is what is read, and nothing else changes. -/
theorem code?_remember (codes : ExitCodes) (thread reader : ThreadId) (id other : SessionId)
    (code : Int) :
    (codes.remember thread id code).code? reader other =
      if (reader, other) = (thread, id) then some code else codes.code? reader other := by
  rw [remember, code?_cons, code?_forget]
  split <;> rfl

theorem code?_remember? (codes : ExitCodes) (thread reader : ThreadId) (id other : SessionId)
    (code : Option Int) :
    (codes.remember? thread id code).code? reader other =
      (if (reader, other) = (thread, id) then code else none).or (codes.code? reader other) := by
  cases code with
  | none =>
      rw [remember?, ite_self]
      rfl
  | some code =>
      rw [remember?, code?_remember]
      split <;> rfl

end ExitCodes

/-- The code that a reply reports to the thread of its call. One command has no time limit. -/
def reportedCode (reply : Reply) : Run.Call → Option Int
  | .one _ => reply.exitStatus
  | .many _ => if reply.timedOut then none else reply.exitStatus

/-- A result has the code that its reply reports. -/
theorem exitCode_resultOf (reply : Reply) (call : Run.Call) :
    (resultOf reply call).exitCode = reportedCode reply call := by
  have withCode (result : Run.Result) (none : result.exitCode = none) (code : Option Int) :
      (result.withExitCode? code).exitCode = code := by
    cases code <;> simp [Run.Result.withExitCode?, Run.Result.withExitCode, none]
  cases call with
  | one command => exact withCode _ rfl _
  | many commands =>
      rw [resultOf, reportedCode]
      cases reply.timedOut with
      | true => rfl
      | false => exact withCode _ rfl _

/-- What a call on a session comes back with, before it is made a result. -/
def Session.replyTo (session : Session) (call : Run.Call) (options : Run.Options) :
    Except ConnectionFault Reply :=
  (sendRetrying (requestOf options call) (session.maxRetries - session.retryCount)
    (session.note (.called call options))).1

/-- A call gives the result of its reply, or fails as its request does. -/
theorem Session.run_outcome (session : Session) (call : Run.Call) (options : Run.Options) :
    (session.run call options).1 = (session.replyTo call options).map (resultOf · call) := rfl

/-- The code that a call on a session reports. -/
def Session.reported? (session : Session) (call : Run.Call) (options : Run.Options) : Option Int :=
  match session.replyTo call options with
  | .error _ => none
  | .ok reply => reportedCode reply call

namespace Registry

/-- The code that an action of a thread reports to a reader for a session. Only a call of the
reader on that session reports any. -/
def reported? (registry : Registry) (reader : ThreadId) (id : SessionId) (thread : ThreadId) :
    Action → Option Int
  | .run target call options =>
    if (reader, id) = (thread, target) then
      (registry.session? target).bind fun session => session.reported? call options
    else none
  | _ => none

/-- The codes that actions report to a reader for a session, in order. -/
def reportedCodes (reader : ThreadId) (id : SessionId) :
    List (ThreadId × Action) → Registry → List Int
  | [], _ => []
  | (thread, action) :: more, registry =>
    (registry.reported? reader id thread action).toList ++
      reportedCodes reader id more (registry.perform thread action).2

variable {registry : Registry} {id : SessionId}

/-- After a call its thread remembers the code that it reports. -/
theorem exitCodes_run (registry : Registry) (thread : ThreadId) (session : Session)
    (call : Run.Call) (options : Run.Options) :
    (registry.run thread session call options).2.exitCodes =
      registry.exitCodes.remember? thread session.id (session.reported? call options) := by
  simp only [Registry.run, Session.run_outcome, Session.reported?]
  cases session.replyTo call options with
  | error fault => rfl
  | ok reply =>
      simp only [Except.map, exitCode_resultOf]
      rfl

/-- An action changes what a reader reads for a session only if it reports a code to the reader
for that session, or drops the session. -/
theorem lastExitCode_perform (registry : Registry) (reader : ThreadId) (id : SessionId)
    (thread : ThreadId) {action : Action} (keeps : action ≠ .drop id) :
    (registry.perform thread action).2.lastExitCode reader id =
      (registry.reported? reader id thread action).or (registry.lastExitCode reader id) := by
  cases action with
  | connect remote maxRetries peer =>
      rcases registry.perform_connect thread remote maxRetries peer with
        ⟨fault, performed⟩ | ⟨session, -, performed⟩
      · rw [performed]; rfl
      · rw [performed]; rfl
  | run target call options =>
      rw [perform, reported?]
      cases found : registry.session? target with
      | none => rw [Option.bind_none, ite_self]; rfl
      | some session =>
          obtain rfl := id_of_session? found
          simp only [lastExitCode, exitCodes_run, ExitCodes.code?_remember?, Option.bind_some]
  | close target =>
      rw [perform]
      cases registry.session? target <;> rfl
  | drop target =>
      rw [perform]
      cases found : registry.session? target with
      | none => rfl
      | some session =>
          obtain rfl := id_of_session? found
          have other : (reader, id) ≠ (thread, session.id) := by
            rintro same
            obtain ⟨-, rfl⟩ := Prod.mk.inj same
            exact keeps rfl
          exact (ExitCodes.code?_forget _ _ _ _ _).trans (if_neg other)

/-- No code is reported for a session that is not alive. -/
theorem reported?_of_not_mem_ids (dead : id ∉ registry.ids) (reader thread : ThreadId)
    (action : Action) : registry.reported? reader id thread action = none := by
  cases action with
  | run target call options =>
      rw [reported?]
      by_cases same : (reader, id) = (thread, target)
      · obtain ⟨-, rfl⟩ := Prod.mk.inj same
        rw [if_pos same, session?_eq_none_iff.mpr dead]
        rfl
      · rw [if_neg same]
  | connect | close | drop => rfl

/-- Nothing is remembered under a number that no session has taken yet. -/
theorem Numbered.lastExitCode_of_not_taken {count : Nat} (numbered : Numbered count registry)
    {reader : ThreadId} (unread : registry.lastExitCode reader id = none)
    {actions : List (ThreadId × Action)} (notTaken : count + openCount actions < id.value.toNat) :
    (Registry.performAll actions registry).lastExitCode reader id = none := by
  induction actions generalizing registry count with
  | nil => exact unread
  | cons step actions ih =>
      obtain ⟨thread, action⟩ := step
      rw [openCount_cons, ← Nat.add_assoc] at notTaken
      have bound := id.value.toNat_lt_size
      have dead : id ∉ registry.ids := by
        intro alive
        have taken := numbered.le id alive
        omega
      refine ih (numbered.perform thread action (by omega)) ?_ notTaken
      by_cases drops : action = .drop id
      · rw [drops, Registry.perform, session?_eq_none_iff.mpr dead]
        exact unread
      · rw [lastExitCode_perform registry reader id thread drops,
          reported?_of_not_mem_ids dead, unread]
        rfl

/-- As long as a session is alive, a reader reads the code that was reported last. None that is
alive at the end was dropped on the way. -/
theorem Numbered.lastExitCode_performAll {count : Nat} (numbered : Numbered count registry)
    (taken : id.value.toNat ≤ count) {actions : List (ThreadId × Action)}
    (few : count + openCount actions < UInt64.size)
    (alive : id ∈ (Registry.performAll actions registry).ids) (reader : ThreadId) :
    (Registry.performAll actions registry).lastExitCode reader id =
      (reportedCodes reader id actions registry).getLast?.or (registry.lastExitCode reader id) := by
  induction actions generalizing registry count with
  | nil => rfl
  | cons step actions ih =>
      obtain ⟨thread, action⟩ := step
      rw [openCount_cons, ← Nat.add_assoc] at few
      have after := numbered.perform thread action (by omega)
      have keeps : action ≠ .drop id := by
        rintro rfl
        have dead := not_mem_ids_perform_drop registry thread id
        exact after.not_mem_ids_performAll (by omega) dead few alive
      have later := ih after (by omega) few alive
      rw [lastExitCode_perform registry reader id thread keeps] at later
      rw [reportedCodes, List.getLast?_append, Option.or_assoc]
      refine later.trans ?_
      cases registry.reported? reader id thread action <;> rfl

/-- The last exit code of a session on a thread is the one that was reported last of the calls of
this thread on this session. A new session has none on any thread, and nothing but a call that
reports a code to the thread for the session changes it while the session is alive. -/
theorem lastExitCode_scope {before after : List (ThreadId × Action)} {creator : ThreadId}
    {remote : Text} {maxRetries : Nat} {peer : Peer} {session : Session}
    (few : openCount (before ++ (creator, .connect remote maxRetries peer) :: after) < UInt64.size)
    (created : ((performAll before .empty).perform creator (.connect remote maxRetries peer)).1 =
      .connected (.ok id))
    (alive : (performAll (before ++ (creator, .connect remote maxRetries peer) :: after)
      .empty).session? id = some session) :
    let opened := ((performAll before .empty).perform creator (.connect remote maxRetries peer)).2
    let now := performAll (before ++ (creator, .connect remote maxRetries peer) :: after) .empty
    (∀ reader, now.lastExitCode reader id = (reportedCodes reader id after opened).getLast?) ∧
      (∀ reader, opened.lastExitCode reader id = none) ∧
      ∀ reader thread action, now.reported? reader id thread action = none →
        action ≠ .drop id →
        (now.perform thread action).2.lastExitCode reader id = now.lastExitCode reader id := by
  intro opened now
  rw [openCount_append, openCount_cons] at few
  have one : openCount [(creator, .connect remote maxRetries peer)] = 1 := rfl
  rw [one] at few
  have numberedBefore : Numbered (openCount before) (performAll before .empty) := by
    rw [← Nat.zero_add (openCount before)]
    exact numbered_empty.performAll (by omega)
  have isNext : id = (performAll before .empty).nextId := by
    rcases (performAll before .empty).perform_connect creator remote maxRetries peer with
      ⟨fault, performed⟩ | ⟨session, -, performed⟩
    · rw [performed] at created
      cases created
    · rw [performed] at created
      cases created
      rfl
  have number : id.value.toNat = openCount before + 1 := by
    rw [isNext, numberedBefore.next_eq (by omega)]
  have numbered : Numbered (openCount before + 1) opened :=
    numberedBefore.perform creator (.connect remote maxRetries peer) (by omega)
  have unread (reader : ThreadId) : opened.lastExitCode reader id = none := by
    have nothing : (Registry.empty).lastExitCode reader id = none := rfl
    have unreadBefore := numbered_empty.lastExitCode_of_not_taken nothing
      (by omega : 0 + openCount before < id.value.toNat)
    rw [lastExitCode_perform _ _ _ _ (by simp), unreadBefore]
    rfl
  have isNow : now = performAll after opened := performAll_append _ _ _
  have inNow : id ∈ now.ids := mem_ids_of_session? alive
  refine ⟨?_, unread, ?_⟩
  · intro reader
    rw [isNow] at inNow ⊢
    rw [numbered.lastExitCode_performAll (by omega) (by omega) inNow, unread, Option.or_none]
  · intro reader thread action unreported keeps
    rw [lastExitCode_perform now reader id thread keeps, unreported]
    rfl

/-- A thread that still holds the code of an ended session reads none for the next session, and
then that of its own call, while another thread reads that of another. -/
theorem lastExitCode_of_second_session :
    let peer (code : Int) : Peer := ⟨[], [.reply ⟨[], [], some code, false⟩,
      .reply ⟨[], [], some (code + 1), false⟩]⟩
    let call (id : UInt64) : Action := .run ⟨id⟩ (.one "uptime".toList) .empty
    let before : List (ThreadId × Action) :=
      [(0, .connect "omm@db01:22".toList 0 (peer 7)), (1, call 1), (0, .drop ⟨1⟩)]
    let connect : Action := .connect "omm@db01:22".toList 0 (peer 3)
    let opened := ((performAll before .empty).perform 0 connect).2
    let now := performAll (before ++ (0, connect) :: [(1, call 2), (0, call 2)]) .empty
    opened.lastExitCode 1 ⟨1⟩ = some 7 ∧ opened.lastExitCode 1 ⟨2⟩ = none ∧
      now.lastExitCode 1 ⟨2⟩ = some 3 ∧ now.lastExitCode 0 ⟨2⟩ = some 4 := by
  intro peer call before connect opened now
  have alive : (now.session? ⟨2⟩).isSome = true := by decide +kernel
  obtain ⟨session, found⟩ := Option.isSome_iff_exists.mp alive
  have created : ((performAll before .empty).perform 0 connect).1 = .connected (.ok ⟨2⟩) := by
    rfl
  have few : openCount (before ++ (0, connect) :: [(1, call 2), (0, call 2)]) < UInt64.size := by
    decide
  obtain ⟨latest, unread, -⟩ := lastExitCode_scope few created found
  exact ⟨by decide +kernel, unread 1, (latest 1).trans (by decide +kernel),
    (latest 0).trans (by decide +kernel)⟩

end Registry

end Errand.Remote
