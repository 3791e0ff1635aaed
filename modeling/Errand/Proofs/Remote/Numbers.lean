/-
# Numbers of sessions

A session takes its number when it is opened, and no number is taken twice before all of them
are used up. So what is remembered under the number of a session that has ended is never found
under the number of a later one, and a session that has ended stays ended, whatever the threads
of the process do in between.
-/
import Errand.Proofs.Remote.Life
import Errand.Remote.Registry

namespace Errand.Remote

/-- Whether an action opens a session. -/
def Action.opens : Action → Bool
  | .connect _ _ _ => true
  | _ => false

/-- How many sessions some actions open, whether these connect or not. -/
def openCount (actions : List (ThreadId × Action)) : Nat := actions.countP (·.2.opens)

namespace Session

theorem reconnect_id (session : Session) : session.reconnect.2.id = session.id := by
  cases refused : session.peer.refusalAt 0 with
  | some refusal => rw [reconnect_of_refused refused]
  | none => rw [reconnect_of_accepted refused]

end Session

namespace Registry

/-- The numbers of the sessions that are alive. -/
def ids (registry : Registry) : List SessionId := registry.sessions.map Session.id

variable {registry : Registry} {id : SessionId}

/-- A session is alive if its number is that of one. -/
theorem session?_eq_none_iff : registry.session? id = none ↔ id ∉ registry.ids := by
  simp [session?, ids, List.find?_eq_none]

theorem mem_ids_of_session? {session : Session} (found : registry.session? id = some session) :
    id ∈ registry.ids := by
  apply Decidable.byContradiction
  intro dead
  rw [session?_eq_none_iff.mpr dead] at found
  cases found

theorem id_of_session? {session : Session} (found : registry.session? id = some session) :
    session.id = id := by
  simpa using List.find?_some found

/-- A session in its new state keeps its place. -/
theorem ids_update (registry : Registry) (session : Session) :
    (registry.update session).ids = registry.ids := by
  simp only [ids, update, List.map_map]
  apply List.map_congr_left
  intro old _
  by_cases same : old.id = session.id <;> simp [same]

/-! ## What an action does -/

/-- A session that is opened takes the next number, and comes to life if it connects. -/
theorem perform_connect (registry : Registry) (thread : ThreadId) (remote : Text)
    (maxRetries : Nat) (peer : Peer) :
    (∃ fault, registry.perform thread (.connect remote maxRetries peer) =
        (.connected (.error fault), { registry with nextId := registry.nextId.next })) ∨
      ∃ session : Session, session.id = registry.nextId ∧
        registry.perform thread (.connect remote maxRetries peer) =
          (.connected (.ok registry.nextId),
            { registry with
              nextId := registry.nextId.next
              sessions := registry.sessions ++ [session] }) := by
  have numbered := (Session.idle registry.nextId remote maxRetries peer).reconnect_id
  rw [perform, connect]
  cases opened : (Session.idle registry.nextId remote maxRetries peer).reconnect with
  | mk outcome session =>
      rw [opened] at numbered
      cases outcome with
      | error fault => exact .inl ⟨fault, rfl⟩
      | ok done =>
          have sameNumber : session.id = registry.nextId := numbered
          exact .inr ⟨session, sameNumber, by simp only [sameNumber]⟩

/-- Opening a session takes the next number and no other action does. -/
theorem nextId_perform (registry : Registry) (thread : ThreadId) (action : Action) :
    (registry.perform thread action).2.nextId =
      if action.opens then registry.nextId.next else registry.nextId := by
  cases action with
  | connect remote maxRetries peer =>
      rcases registry.perform_connect thread remote maxRetries peer with
        ⟨fault, performed⟩ | ⟨session, -, performed⟩
      · rw [performed]; rfl
      · rw [performed]; rfl
  | run id call options | close id | drop id =>
      rw [perform]
      cases registry.session? id <;> rfl

/-- A number is that of a session alive before or of the one that is opened. -/
theorem mem_ids_perform {thread : ThreadId} {action : Action}
    (alive : id ∈ (registry.perform thread action).2.ids) :
    id ∈ registry.ids ∨ action.opens = true ∧ id = registry.nextId := by
  cases action with
  | connect remote maxRetries peer =>
      rcases registry.perform_connect thread remote maxRetries peer with
        ⟨fault, performed⟩ | ⟨session, numbered, performed⟩
      · rw [performed] at alive
        exact .inl alive
      · rw [performed, ids, List.map_append, List.mem_append] at alive
        rcases alive with before | opened
        · exact .inl before
        · refine .inr ⟨rfl, ?_⟩
          rw [← numbered]
          exact List.mem_singleton.mp opened
  | run target call options =>
      refine .inl ?_
      rw [perform] at alive
      cases found : registry.session? target with
      | none => rwa [found] at alive
      | some session =>
          rw [found] at alive
          rw [← ids_update registry (session.run call options).2]
          exact alive
  | close target =>
      refine .inl ?_
      rw [perform] at alive
      cases found : registry.session? target with
      | none => rwa [found] at alive
      | some session =>
          rw [found] at alive
          rw [← ids_update registry session.close]
          exact alive
  | drop target =>
      refine .inl ?_
      rw [perform] at alive
      cases found : registry.session? target with
      | none => rwa [found] at alive
      | some session =>
          rw [found] at alive
          obtain ⟨other, member, rfl⟩ := List.mem_map.mp alive
          exact List.mem_map_of_mem (List.mem_filter.mp member).1

/-- A session that is dropped is no longer alive. -/
theorem not_mem_ids_perform_drop (registry : Registry) (thread : ThreadId) (id : SessionId) :
    id ∉ (registry.perform thread (.drop id)).2.ids := by
  rw [perform]
  cases found : registry.session? id with
  | none => exact session?_eq_none_iff.mp found
  | some session =>
      simp [drop, ids, id_of_session? found]

/-! ## Numbers in use -/

/-- After `count` sessions have been opened, the next number is the one behind theirs, and no
session that is alive has a higher one. -/
structure Numbered (count : Nat) (registry : Registry) : Prop where
  next : registry.nextId.value.toNat = (count + 1) % UInt64.size
  le : ∀ id ∈ registry.ids, id.value.toNat ≤ count

theorem numbered_empty : Numbered 0 .empty where
  next := rfl
  le _ member := by cases member

/-- The number of the next session, as long as there are numbers left. -/
theorem Numbered.next_eq {count : Nat} (numbered : Numbered count registry)
    (few : count + 1 < UInt64.size) : registry.nextId.value.toNat = count + 1 := by
  rw [numbered.next, Nat.mod_eq_of_lt few]

theorem Numbered.perform {count : Nat} (numbered : Numbered count registry) (thread : ThreadId)
    (action : Action) (few : count + openCount [(thread, action)] < UInt64.size) :
    Numbered (count + openCount [(thread, action)]) (registry.perform thread action).2 := by
  cases opens : action.opens with
  | false =>
      have count_eq : openCount [(thread, action)] = 0 := by simp [openCount, opens]
      rw [count_eq]
      constructor
      · rw [nextId_perform, opens]
        exact numbered.next
      · intro id alive
        rcases mem_ids_perform alive with before | ⟨opened, -⟩
        · exact numbered.le id before
        · rw [opens] at opened
          cases opened
  | true =>
      have count_eq : openCount [(thread, action)] = 1 := by simp [openCount, opens]
      rw [count_eq] at few ⊢
      constructor
      · rw [nextId_perform, opens, if_pos rfl, SessionId.next, UInt64.toNat_add,
          numbered.next_eq few]
        rfl
      · intro id alive
        rcases mem_ids_perform alive with before | ⟨-, rfl⟩
        · exact Nat.le_succ_of_le (numbered.le id before)
        · exact Nat.le_of_eq (numbered.next_eq few)

theorem openCount_cons (thread : ThreadId) (action : Action)
    (actions : List (ThreadId × Action)) :
    openCount ((thread, action) :: actions) =
      openCount [(thread, action)] + openCount actions := by
  rw [openCount, openCount, openCount, ← List.countP_append]
  rfl

theorem openCount_append (actions more : List (ThreadId × Action)) :
    openCount (actions ++ more) = openCount actions + openCount more := List.countP_append

theorem performAll_append (actions more : List (ThreadId × Action)) (registry : Registry) :
    performAll (actions ++ more) registry = performAll more (performAll actions registry) := by
  induction actions generalizing registry with
  | nil => rfl
  | cons step actions ih => exact ih _

theorem Numbered.performAll {count : Nat} (numbered : Numbered count registry)
    {actions : List (ThreadId × Action)} (few : count + openCount actions < UInt64.size) :
    Numbered (count + openCount actions) (performAll actions registry) := by
  induction actions generalizing registry count with
  | nil => exact numbered
  | cons step actions ih =>
      obtain ⟨thread, action⟩ := step
      rw [openCount_cons, ← Nat.add_assoc] at few ⊢
      exact ih (numbered.perform thread action (by omega)) few

/-- A session that is not alive any more stays so, as long as there are numbers left. -/
theorem Numbered.not_mem_ids_performAll {count : Nat} (numbered : Numbered count registry)
    (taken : id.value.toNat ≤ count) (dead : id ∉ registry.ids)
    {actions : List (ThreadId × Action)} (few : count + openCount actions < UInt64.size) :
    id ∉ (Registry.performAll actions registry).ids := by
  induction actions generalizing registry count with
  | nil => exact dead
  | cons step actions ih =>
      obtain ⟨thread, action⟩ := step
      rw [openCount_cons, ← Nat.add_assoc] at few
      refine ih (numbered.perform thread action (by omega)) (by omega) ?_ few
      intro alive
      rcases mem_ids_perform alive with before | ⟨opens, isNext⟩
      · exact dead before
      · have one : openCount [(thread, action)] = 1 := by simp [openCount, opens]
        have next := numbered.next_eq (by omega)
        rw [← isNext] at next
        omega

end Registry

end Errand.Remote
