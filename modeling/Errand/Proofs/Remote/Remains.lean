/-
# Codes that outlive their session

Codes are remembered by the thread that calls and forgotten by the thread that drops the session.
These need not be the same. So a thread that called on a session which another thread then drops
keeps the code for good: it cannot read it any more, since the session is gone, and nothing ever
takes it away, since no later session has that number.

Which entries are left behind is settled at the drop. Before it each thread holds the code that was
reported to it last, and after it nothing changes.
-/
import Errand.Proofs.Remote.LastCode
import Mathlib.Data.List.Induction

namespace Errand.Remote.Registry

variable {registry : Registry} {id : SessionId}

/-! ## One action -/

/-- Only dropping it ends a session. -/
theorem mem_ids_perform_of_ne_drop (alive : id ∈ registry.ids) (thread : ThreadId)
    {action : Action} (keeps : action ≠ .drop id) : id ∈ (registry.perform thread action).2.ids := by
  cases action with
  | connect remote maxRetries peer =>
      rcases registry.perform_connect thread remote maxRetries peer with
        ⟨fault, performed⟩ | ⟨session, -, performed⟩
      · rw [performed]
        exact alive
      · rw [performed, ids, List.map_append]
        exact List.mem_append_left _ alive
  | run target call options =>
      rw [perform]
      cases registry.session? target with
      | none => exact alive
      | some session => exact (ids_update registry (session.run call options).2).symm ▸ alive
  | close target =>
      rw [perform]
      cases registry.session? target with
      | none => exact alive
      | some session => exact (ids_update registry session.close).symm ▸ alive
  | drop target =>
      rw [perform]
      cases found : registry.session? target with
      | none => exact alive
      | some session =>
          have differs : id ≠ session.id := by
            rintro rfl
            exact keeps (congrArg Action.drop (id_of_session? found).symm)
          obtain ⟨other, isMember, rfl⟩ := List.mem_map.mp alive
          exact List.mem_map_of_mem (List.mem_filter.mpr ⟨isMember, by simpa using differs⟩)

/-- Dropping a session takes away the entry of the thread that drops it. -/
theorem lastExitCode_perform_drop (alive : id ∈ registry.ids) (reader thread : ThreadId) :
    (registry.perform thread (.drop id)).2.lastExitCode reader id =
      if reader = thread then none else registry.lastExitCode reader id := by
  rw [perform]
  cases found : registry.session? id with
  | none => exact absurd alive (session?_eq_none_iff.mp found)
  | some session =>
      obtain rfl := id_of_session? found
      refine (ExitCodes.code?_forget _ _ _ _ _).trans ?_
      simp [lastExitCode]

/-- Nothing changes for a session that is not alive. -/
theorem lastExitCode_perform_of_dead (dead : id ∉ registry.ids) (reader thread : ThreadId)
    (action : Action) :
    (registry.perform thread action).2.lastExitCode reader id = registry.lastExitCode reader id := by
  by_cases drops : action = .drop id
  · rw [drops, perform, session?_eq_none_iff.mpr dead]
  · rw [lastExitCode_perform registry reader id thread drops, reported?_of_not_mem_ids dead,
      Option.none_or]

/-! ## Whole runs -/

/-- What is left of a session that has ended is left for good. -/
theorem Numbered.lastExitCode_performAll_of_dead {count : Nat} (numbered : Numbered count registry)
    (taken : id.value.toNat ≤ count) (dead : id ∉ registry.ids)
    {actions : List (ThreadId × Action)} (few : count + openCount actions < UInt64.size)
    (reader : ThreadId) :
    (Registry.performAll actions registry).lastExitCode reader id =
      registry.lastExitCode reader id := by
  induction actions generalizing registry count with
  | nil => rfl
  | cons step actions ih =>
      obtain ⟨thread, action⟩ := step
      rw [openCount_cons, ← Nat.add_assoc] at few
      have stillDead : id ∉ (Registry.performAll [(thread, action)] registry).ids :=
        numbered.not_mem_ids_performAll taken dead (by omega)
      refine (ih (numbered.perform thread action (by omega)) (by omega) stillDead few).trans ?_
      exact lastExitCode_perform_of_dead dead reader thread action

/-- A thread holds the code that was reported to it last, from the first action on until the session
ends. Until the number is taken, there is nothing to report and nothing to drop. -/
theorem Numbered.lastExitCode_of_alive {count : Nat} (numbered : Numbered count registry)
    {actions : List (ThreadId × Action)} (few : count + openCount actions < UInt64.size)
    (alive : id ∈ (Registry.performAll actions registry).ids) (reader : ThreadId) :
    (Registry.performAll actions registry).lastExitCode reader id =
      (reportedCodes reader id actions registry).getLast?.or (registry.lastExitCode reader id) := by
  by_cases taken : id.value.toNat ≤ count
  · exact numbered.lastExitCode_performAll taken few alive reader
  induction actions generalizing registry count with
  | nil => rfl
  | cons step actions ih =>
      obtain ⟨thread, action⟩ := step
      have dead : id ∉ registry.ids := fun present => taken (numbered.le id present)
      have unreported := reported?_of_not_mem_ids dead reader thread action
      have unchanged := lastExitCode_perform_of_dead dead reader thread action
      rw [openCount_cons, ← Nat.add_assoc] at few
      have after := numbered.perform thread action (by omega)
      rw [reportedCodes, unreported, ← unchanged]
      by_cases isTaken : id.value.toNat ≤ count + openCount [(thread, action)]
      · exact after.lastExitCode_performAll isTaken few alive reader
      · exact ih after few alive isTaken

/-- What is held of a session that is not alive was held when another thread dropped it. -/
theorem exists_drop_of_lastExitCode {actions : List (ThreadId × Action)} {reader : ThreadId}
    {code : Int} (dead : id ∉ (performAll actions .empty).ids)
    (held : (performAll actions .empty).lastExitCode reader id = some code) :
    ∃ before dropper after, actions = before ++ (dropper, .drop id) :: after ∧
      id ∈ (performAll before .empty).ids ∧ reader ≠ dropper ∧
      (performAll before .empty).lastExitCode reader id = some code := by
  induction actions using List.reverseRecOn with
  | nil => cases held
  | append_singleton earlier step ih =>
      obtain ⟨thread, action⟩ := step
      rw [performAll_append] at dead held
      by_cases alive : id ∈ (performAll earlier .empty).ids
      · have drops : action = .drop id := by
          by_contra keeps
          exact dead (mem_ids_perform_of_ne_drop alive thread keeps)
        subst drops
        replace held := (lastExitCode_perform_drop alive reader thread).symm.trans held
        by_cases same : reader = thread
        · rw [if_pos same] at held
          cases held
        · rw [if_neg same] at held
          exact ⟨earlier, thread, [], rfl, alive, same, held⟩
      · have before := (lastExitCode_perform_of_dead alive reader thread action).symm.trans held
        obtain ⟨start, dropper, after, rfl, rest⟩ := ih alive before
        exact ⟨start, dropper, after ++ [(thread, action)], by simp, rest⟩

/-- What each thread holds of a session that is dropped, whatever is done afterwards. -/
theorem lastExitCode_of_dropped {before after : List (ThreadId × Action)} {dropper : ThreadId}
    (few : openCount (before ++ (dropper, .drop id) :: after) < UInt64.size)
    (alive : id ∈ (performAll before .empty).ids) (reader : ThreadId) :
    let now := performAll (before ++ (dropper, .drop id) :: after) .empty
    id ∉ now.ids ∧ now.lastExitCode reader id =
      if reader = dropper then none else (reportedCodes reader id before .empty).getLast? := by
  rw [openCount_append, openCount_cons] at few
  have numbered : Numbered (0 + openCount before) (performAll before .empty) :=
    numbered_empty.performAll (by omega)
  have taken := numbered.le id alive
  have ended := numbered.perform dropper (.drop id) (by omega)
  have dead := not_mem_ids_perform_drop (performAll before .empty) dropper id
  have held := numbered_empty.lastExitCode_of_alive (by omega) alive reader
  dsimp only
  rw [performAll_append]
  refine ⟨ended.not_mem_ids_performAll (by omega) dead (by omega), ?_⟩
  refine (ended.lastExitCode_performAll_of_dead (by omega) dead (by omega) reader).trans ?_
  rw [lastExitCode_perform_drop alive, held]
  exact congrArg (fun code => if reader = dropper then none else code) Option.or_none

/-- An entry for a session that is not alive is that of a thread which got a code for it before
another thread dropped it, and it is the last such code. So no entry is left behind just if every
session that is dropped has reported codes to no thread but the one that drops it. -/
theorem code_outlives_session_iff {actions : List (ThreadId × Action)}
    (few : openCount actions < UInt64.size) :
    let now := performAll actions .empty
    (∀ reader id code, id ∉ now.ids ∧ now.lastExitCode reader id = some code ↔
      ∃ before dropper after, actions = before ++ (dropper, .drop id) :: after ∧
        id ∈ (performAll before .empty).ids ∧ reader ≠ dropper ∧
        (reportedCodes reader id before .empty).getLast? = some code) ∧
      ((∀ reader id, id ∉ now.ids → now.lastExitCode reader id = none) ↔
        ∀ before dropper id after, actions = before ++ (dropper, .drop id) :: after →
          id ∈ (performAll before .empty).ids →
          ∀ reader, reportedCodes reader id before .empty ≠ [] → reader = dropper) := by
  intro now
  refine ⟨fun reader id code => ⟨?_, ?_⟩, ?_, ?_⟩
  · rintro ⟨dead, held⟩
    obtain ⟨before, dropper, after, rfl, alive, differs, heldBefore⟩ :=
      exists_drop_of_lastExitCode dead held
    refine ⟨before, dropper, after, rfl, alive, differs, ?_⟩
    obtain ⟨-, left⟩ := lastExitCode_of_dropped few alive reader
    rw [if_neg differs] at left
    exact left.symm.trans held
  · rintro ⟨before, dropper, after, rfl, alive, differs, reported⟩
    obtain ⟨dead, left⟩ := lastExitCode_of_dropped few alive reader
    rw [if_neg differs, reported] at left
    exact ⟨dead, left⟩
  · rintro clean before dropper id after rfl alive reader reported
    by_contra differs
    obtain ⟨dead, left⟩ := lastExitCode_of_dropped few alive reader
    rw [if_neg differs] at left
    exact reported (List.getLast?_eq_none_iff.mp (left.symm.trans (clean reader id dead)))
  · intro own reader id dead
    cases held : now.lastExitCode reader id with
    | none => rfl
    | some code =>
        obtain ⟨before, dropper, after, rfl, alive, differs, -⟩ :=
          exists_drop_of_lastExitCode dead held
        obtain ⟨-, left⟩ := lastExitCode_of_dropped few alive reader
        rw [if_neg differs] at left
        have reported : reportedCodes reader id before .empty ≠ [] := by
          intro nothing
          rw [nothing] at left
          cases left.symm.trans held
        exact absurd (own before dropper id after rfl alive reader reported) differs

/-- A session on which two threads have called keeps the code of the one that does not drop it, and
keeps it while another session is used. -/
theorem code_of_other_caller_outlives_session :
    let call (id : UInt64) : Action := .run ⟨id⟩ (.one "uptime".toList) .empty
    let peer : Peer := ⟨[], [.reply ⟨[], [], some 3, false⟩, .reply ⟨[], [], some 4, false⟩]⟩
    let before : List (ThreadId × Action) :=
      [(0, .connect "omm@db01:22".toList 5 peer), (1, call 1), (2, call 1)]
    let after : List (ThreadId × Action) :=
      [(1, .connect "omm@db02:22".toList 5 ⟨[], []⟩), (1, call 2), (1, call 1)]
    let now := performAll (before ++ (2, .drop ⟨1⟩) :: after) .empty
    openCount (before ++ (2, .drop ⟨1⟩) :: after) < UInt64.size ∧
      ⟨1⟩ ∉ now.ids ∧ now.lastExitCode 1 ⟨1⟩ = some 3 := by
  intro call peer before after now
  have few : openCount (before ++ (2, .drop ⟨1⟩) :: after) < UInt64.size := by decide
  have left := (code_outlives_session_iff few).1 1 ⟨1⟩ 3
  exact ⟨few, left.mpr ⟨before, 2, after, rfl, by decide +kernel, by decide, by decide +kernel⟩⟩

/-- The session of a pool: a worker calls on it, and the thread that opened it drops it. No session
is alive then, and the worker still holds its code. -/
theorem entry_outlives_session :
    let actions : List (ThreadId × Action) :=
      [(0, .connect "omm@db01:22".toList 5 ⟨[], []⟩),
        (1, .run .first (.one "uptime".toList) .empty), (0, .drop .first)]
    let now := performAll actions .empty
    now.ids = [] ∧ now.lastExitCode 0 .first = none ∧ now.lastExitCode 1 .first = some 0 := by
  decide +kernel

/-! ## Growth -/

/-- A session that one thread opens and drops and another one calls on in between. -/
def lent (id : SessionId) : List (ThreadId × Action) :=
  [(0, .connect [] 0 ⟨[], []⟩), (1, .run id (.one []) .empty), (0, .drop id)]

theorem performAll_lent (noSession : registry.sessions = []) :
    performAll (lent registry.nextId) registry =
      ⟨registry.nextId.next, [],
        (registry.exitCodes.remember 1 registry.nextId 0).forget 0 registry.nextId⟩ := by
  obtain ⟨nextId, sessions, exitCodes⟩ := registry
  obtain rfl : sessions = [] := noSession
  have ran : Session.run (.one []) .empty ⟨nextId, [], true, 0, 0, ⟨[], []⟩, [.connected]⟩ =
      (.ok (resultOf .quiet (.one [])), ⟨nextId, [], true, 0, 0, ⟨[], []⟩,
        [.connected, .called (.one []) .empty,
          .sent (requestOf .empty (.one [])) (.reply .quiet)]⟩) := rfl
  have code : (resultOf .quiet (.one [])).exitCode = some 0 := rfl
  simp [lent, performAll, perform, connect, session?, Session.idle, Session.reconnect,
    Session.release, Session.note, Peer.connect, run, update, drop, ran, code,
    ExitCodes.remember?]

theorem lastExitCode_lent (noSession : registry.sessions = []) (id : SessionId) :
    (performAll (lent registry.nextId) registry).lastExitCode 1 id =
      if id = registry.nextId then some 0 else registry.lastExitCode 1 id := by
  rw [performAll_lent noSession, lastExitCode, ExitCodes.code?_forget, ExitCodes.code?_remember]
  simp [lastExitCode]

/-- However many sessions are lent one after another, no session is alive in the end and every one
of them has left an entry. So the entries grow with the sessions that were ever used. -/
theorem lastExitCode_of_lent (count : Nat) (noSession : registry.sessions = []) :
    let now := performAll ((SessionId.series count registry.nextId).flatMap lent) registry
    now.ids = [] ∧
      ∀ id, id ∈ SessionId.series count registry.nextId ∨ registry.lastExitCode 1 id = some 0 →
        now.lastExitCode 1 id = some 0 := by
  induction count generalizing registry with
  | zero =>
      have noIds : registry.ids = [] := by rw [ids, noSession, List.map_nil]
      exact ⟨noIds, fun id held => held.resolve_left List.not_mem_nil⟩
  | succ count ih =>
      have after : performAll (lent registry.nextId) registry = _ := performAll_lent noSession
      have next : (performAll (lent registry.nextId) registry).nextId = registry.nextId.next := by
        rw [after]
      have noneLeft : (performAll (lent registry.nextId) registry).sessions = [] := by rw [after]
      have rest := ih noneLeft
      rw [next] at rest
      rw [SessionId.series, List.flatMap_cons, performAll_append]
      refine ⟨rest.1, fun id held => rest.2 id ?_⟩
      rw [lastExitCode_lent noSession]
      rcases held with isListed | isHeld
      · rcases List.mem_cons.mp isListed with isFirst | isLater
        · exact .inr (if_pos isFirst)
        · exact .inl isLater
      · refine .inr ?_
        split
        · rfl
        · exact isHeld

end Errand.Remote.Registry
