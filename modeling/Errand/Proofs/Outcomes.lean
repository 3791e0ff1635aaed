/-
# Outcomes of steps

A step that succeeds behind another shows that the other has succeeded too, and a failure that is
passed on is a failure that was there before.
-/

namespace Errand

variable {ε η α β : Type}

/-- A result that a function was applied to is the value of a result before. -/
theorem exists_of_map_eq_ok {result : Except ε α} {f : α → β} {value : β}
    (mapped : result.map f = .ok value) : ∃ before, result = .ok before ∧ f before = value := by
  cases result with
  | error fault => cases mapped
  | ok before => exact ⟨before, rfl, Except.ok.inj mapped⟩

/-- A result of two steps is that of the second with the result of the first. -/
theorem exists_of_bind_eq_ok {result : Except ε α} {next : α → Except ε β} {value : β}
    (bound : result >>= next = .ok value) :
    ∃ before, result = .ok before ∧ next before = .ok value := by
  cases result with
  | error fault => cases bound
  | ok before => exact ⟨before, rfl, bound⟩

/-- A failure that a function was applied to was there before. -/
theorem eq_error_of_map_eq_error {result : Except ε α} {f : α → β} {fault : ε}
    (mapped : result.map f = .error fault) : result = .error fault := by
  cases result with
  | error found => exact congrArg Except.error (Except.error.inj mapped)
  | ok value => cases mapped

/-- A changed fault was a fault before. -/
theorem exists_of_mapError_eq_error {result : Except ε α} {f : ε → η} {fault : η}
    (mapped : result.mapError f = .error fault) : ∃ found, result = .error found := by
  cases result with
  | error found => exact ⟨found, rfl⟩
  | ok value => cases mapped

end Errand
