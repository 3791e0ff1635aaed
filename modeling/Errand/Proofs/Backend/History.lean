/-
# The last exit code over a whole history

A shared local backend remembers one exit code. Over any history of steps that is the code of the
latest call on the backend which returned a result with one, and calls that fail, time out or have
no code to report are as if they had not been made. Once a thread has failed while it held the
lock, calls through the pool are refused for good. Direct calls do not ask for the lock and go on
as before.
-/
import Errand.Proofs.Backend.Verdicts

namespace Errand.Backend

open Run

/-- A step, on the machine as it is when the step is taken. -/
structure Turn where
  host : Local.Host
  vars : ProcessVariables
  step : LocalStep

/-- Whether a step is a call on the shared backend. -/
def LocalStep.isCall : LocalStep → Bool
  | .direct _ _ | .pooled _ _ => true
  | .separate _ _ | .close | .poison => false

/-- A step that was taken, with what it gave. -/
structure Deed where
  step : LocalStep
  outcome : Option (Except Error Result)

namespace Deed

/-- The code that a deed reports: that of a result which a call on the backend returned. -/
def code? (deed : Deed) : Option Int :=
  match deed.outcome with
  | some (.ok result) => if deed.step.isCall then result.exitCode else none
  | some (.error _) | none => none

/-- A deed that is no call on the backend, or one that fails, times out or has no code. -/
def IsSilent (deed : Deed) : Prop :=
  ∀ result, deed.outcome = some (.ok result) → deed.step.isCall = true →
    result.timedOut = true ∨ result.exitCode = none

theorem code?_of_not_isCall {deed : Deed} (noCall : deed.step.isCall = false) :
    deed.code? = none := by
  rw [code?, noCall]
  cases deed.outcome with
  | none => rfl
  | some outcome => cases outcome <;> rfl

end Deed

namespace Turn

/-- What is done in a turn. -/
def deed (turn : Turn) (backend : LocalBackend) : Deed :=
  ⟨turn.step, (backend.perform turn.host turn.vars turn.step).1⟩

/-- The backend after a turn. -/
def after (turn : Turn) (backend : LocalBackend) : LocalBackend :=
  (backend.perform turn.host turn.vars turn.step).2.2

end Turn

/-- The backend after some turns. -/
def performAll (turns : List Turn) (backend : LocalBackend) : LocalBackend :=
  turns.foldl (fun backend turn => turn.after backend) backend

/-- What is done in some turns, one after another. -/
def history : List Turn → LocalBackend → List Deed
  | [], _ => []
  | turn :: turns, backend => turn.deed backend :: history turns (turn.after backend)

/-! ## One step -/

section Step

variable {host : Local.Host} {vars : ProcessVariables} {call : Call} {options : Options}
  {backend : LocalBackend}

/-- A spoilt lock lets nothing through, whatever the machine would do. -/
theorem perform_pooled_of_poisoned (poisoned : backend.isPoisoned = true) :
    backend.perform host vars (.pooled call options) =
      (some (.error .lockPoisoned), [dispatchRecord call], backend) := by
  rw [LocalBackend.perform, LocalBackend.runPooled, if_pos poisoned]

/-- A sound one makes a direct call of it. -/
theorem perform_pooled_of_sound (sound : backend.isPoisoned = false) :
    let direct := backend.perform host vars (.direct call options)
    backend.perform host vars (.pooled call options) =
      (direct.1, dispatchRecord call :: direct.2.1, direct.2.2) := by
  intro direct
  rw [LocalBackend.perform, LocalBackend.runPooled, sound]
  rfl

/-- What a direct call leaves behind. -/
theorem perform_direct_after :
    (backend.perform host vars (.direct call options)).2.2 =
      ⟨(Deed.mk (.direct call options) (some (Local.run host vars options call).1)).code?.or
        backend.lastExitCode, backend.isPoisoned⟩ := by
  simp only [LocalBackend.perform, LocalBackend.run, LocalBackend.record]
  cases (Local.run host vars options call).1 with
  | error error => rfl
  | ok result =>
      obtain ⟨stdout, stderr, code, timedOut⟩ := result
      cases code <;> rfl

end Step

namespace Turn

variable (turn : Turn) (backend : LocalBackend)

/-- A turn leaves the code that it reports, else the one that was there. -/
theorem lastExitCode_after :
    (turn.after backend).lastExitCode = (turn.deed backend).code?.or backend.lastExitCode := by
  obtain ⟨host, vars, step⟩ := turn
  rw [after, deed]
  cases step with
  | direct call options =>
      rw [perform_direct_after]
      rfl
  | pooled call options =>
      cases spoilt : backend.isPoisoned with
      | true =>
          rw [perform_pooled_of_poisoned spoilt]
          rfl
      | false =>
          rw [perform_pooled_of_sound spoilt, perform_direct_after]
          rfl
  | separate call options =>
      rw [Deed.code?_of_not_isCall rfl]
      rfl
  | close => rfl
  | poison => rfl

/-- Only a thread that fails spoils the lock, and nothing mends it. -/
theorem isPoisoned_after :
    (turn.after backend).isPoisoned = true ↔
      backend.isPoisoned = true ∨ turn.step = .poison := by
  obtain ⟨host, vars, step⟩ := turn
  rw [after]
  cases step with
  | direct call options => simp [perform_direct_after]
  | pooled call options =>
      cases spoilt : backend.isPoisoned with
      | true => simp [perform_pooled_of_poisoned spoilt, spoilt]
      | false => simp [perform_pooled_of_sound spoilt, perform_direct_after, spoilt]
  | separate call options => simp [LocalBackend.perform]
  | close => simp [LocalBackend.perform]
  | poison => simp [LocalBackend.perform]

/-- A result that a call returns has no code if it timed out, so a silent turn reports nothing. -/
theorem code?_deed_of_isSilent (silent : (turn.deed backend).IsSilent) :
    (turn.deed backend).code? = none := by
  cases isCall : (turn.deed backend).step.isCall with
  | false => exact Deed.code?_of_not_isCall isCall
  | true =>
      rw [Deed.code?, isCall]
      cases gave : (turn.deed backend).outcome with
      | none => rfl
      | some outcome =>
          cases outcome with
          | error error => rfl
          | ok result =>
              have returned : Returned result := .backend gave
              rcases silent result gave isCall with late | noCode
              · exact (returned.consistent.late late).1
              · exact noCode

end Turn

/-! ## A whole history -/

section Turns

variable (turns : List Turn) (backend : LocalBackend)

theorem lastExitCode_performAll :
    (performAll turns backend).lastExitCode =
      ((history turns backend).filterMap Deed.code?).getLast?.or backend.lastExitCode := by
  induction turns generalizing backend with
  | nil => rfl
  | cons turn turns ih =>
      have later : (performAll (turn :: turns) backend).lastExitCode = _ := ih (turn.after backend)
      rw [later, turn.lastExitCode_after, history, List.filterMap_cons]
      cases (turn.deed backend).code? with
      | none => rfl
      | some code =>
          rw [List.getLast?_cons]
          cases ((history turns (turn.after backend)).filterMap Deed.code?).getLast? <;> rfl

theorem isPoisoned_performAll :
    (performAll turns backend).isPoisoned = true ↔
      backend.isPoisoned = true ∨ ∃ turn ∈ turns, turn.step = .poison := by
  induction turns generalizing backend with
  | nil => simp [performAll]
  | cons turn turns ih =>
      have later := ih (turn.after backend)
      rw [turn.isPoisoned_after, or_assoc] at later
      simpa [performAll] using later

end Turns

/-- Over any history the backend remembers the code of the latest call on it that returned a result
with one. A call that fails, times out or has no code changes nothing. Once a thread has failed
while it held the lock, every call in the pool is refused without anything being run, until then
each is a direct call, and direct calls run and are recorded either way. -/
theorem last_code_over_history (turns : List Turn) :
    let backend := performAll turns .fresh
    backend.lastExitCode = ((history turns .fresh).filterMap Deed.code?).getLast? ∧
    (∀ turn : Turn, (turn.deed backend).IsSilent →
      (turn.after backend).lastExitCode = backend.lastExitCode) ∧
    ∀ host vars call options,
      let outcome := (Local.run host vars options call).1
      let direct := backend.perform host vars (.direct call options)
      let pooled := backend.perform host vars (.pooled call options)
      direct.1 = some outcome ∧
      direct.2.2 = ⟨(Deed.mk (.direct call options) (some outcome)).code?.or backend.lastExitCode,
        backend.isPoisoned⟩ ∧
      ((∃ turn ∈ turns, turn.step = .poison) →
        pooled = (some (.error .lockPoisoned), [dispatchRecord call], backend)) ∧
      ((∀ turn ∈ turns, turn.step ≠ .poison) →
        pooled = (direct.1, dispatchRecord call :: direct.2.1, direct.2.2)) := by
  intro backend
  have sound := isPoisoned_performAll turns .fresh
  refine ⟨?_, ?_, ?_⟩
  · rw [lastExitCode_performAll]
    exact Option.or_none
  · intro turn silent
    rw [turn.lastExitCode_after, turn.code?_deed_of_isSilent _ silent, Option.none_or]
  · intro host vars call options outcome direct pooled
    refine ⟨rfl, perform_direct_after, ?_, ?_⟩
    · intro poisoned
      exact perform_pooled_of_poisoned (sound.mpr (.inr poisoned))
    · intro unspoilt
      apply perform_pooled_of_sound
      rw [← Bool.not_eq_true]
      intro poisoned
      rcases sound.mp poisoned with fresh | ⟨turn, member, poison⟩
      · cases fresh
      · exact unspoilt turn member poison

/-- A host on which every process exits with a code. -/
def exiting (code : Int) : Local.Host where
  refusal := fun _ _ => none
  wait := fun _ _ _ => .ok ⟨[], [], some (.exited code)⟩

/-- A call in the pool is recorded and one beside the backend is not. With the lock spoilt, a call
in the pool is refused and leaves the code, and a direct call replaces it. -/
theorem spoilt_lock_keeps_code :
    let call := Call.one "true".toList
    let healthy : List Turn :=
      [⟨exiting 3, [], .pooled call .empty⟩, ⟨exiting 4, [], .separate call .empty⟩]
    let spoilt : List Turn := healthy ++ [⟨exiting 0, [], .poison⟩]
    let backend := performAll spoilt .fresh
    let direct := (performAll healthy .fresh).perform (exiting 5) [] (.direct call .empty)
    backend = ⟨some 3, true⟩ ∧
      backend.lastExitCode = ((history spoilt .fresh).filterMap Deed.code?).getLast? ∧
      (Turn.after ⟨exiting 5, [], .pooled call .empty⟩ backend).lastExitCode = some 3 ∧
      backend.perform (exiting 5) [] (.pooled call .empty) =
        (some (.error .lockPoisoned), [dispatchRecord call], backend) ∧
      (backend.perform (exiting 5) [] (.direct call .empty)).2.2 = ⟨some 5, true⟩ ∧
      (performAll healthy .fresh).perform (exiting 5) [] (.pooled call .empty) =
        (direct.1, dispatchRecord call :: direct.2.1, direct.2.2) := by
  intro call healthy spoilt backend direct
  obtain ⟨latest, silent, calls⟩ := last_code_over_history spoilt
  obtain ⟨-, recorded, refused, -⟩ := calls (exiting 5) [] call .empty
  obtain ⟨-, -, -, served⟩ := (last_code_over_history healthy).2.2 (exiting 5) [] call .empty
  have isBackend : backend = ⟨some 3, true⟩ := by decide +kernel
  have isRefused := refused ⟨_, List.mem_append_right _ (List.mem_singleton_self _), rfl⟩
  have isSilent : (Turn.deed ⟨exiting 5, [], .pooled call .empty⟩ backend).IsSilent := by
    intro result gives
    have failed : (backend.perform (exiting 5) [] (.pooled call .empty)).1 = some (.ok result) :=
      gives
    rw [isRefused] at failed
    cases failed
  have unchanged := silent ⟨exiting 5, [], .pooled call .empty⟩ isSilent
  refine ⟨isBackend, latest, unchanged.trans (congrArg _ isBackend), isRefused, ?_, served ?_⟩
  · rw [recorded]
    decide +kernel
  · simp [healthy]

end Errand.Backend
