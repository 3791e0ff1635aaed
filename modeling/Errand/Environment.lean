/-
# Environments

An environment gives each name at most one value. Setting a name keeps the place of
a name that is already there, so the order of names is the order in which they
first came.
-/
import Errand.Text.Utf8

namespace Errand

/-- Variables and their values, in the order in which the names first came. -/
abbrev Environment := List (Text × Text)

namespace Environment

/-- The value of a name. -/
def get? (env : Environment) (name : Text) : Option Text :=
  List.lookup name env

/-- The environment with `name` set to `value`. -/
def set (name value : Text) : Environment → Environment
  | [] => [(name, value)]
  | (other, old) :: rest =>
    if other = name then (name, value) :: rest else (other, old) :: set name value rest

/-- The environment with every assignment of the list made, first to last. -/
def setAll (env : Environment) (assignments : List (Text × Text)) : Environment :=
  assignments.foldl (fun current (name, value) => current.set name value) env

/-- The environment without a name. -/
def unset (env : Environment) (name : Text) : Environment :=
  env.filter fun (other, _) => other != name

/-- Setting a name gives it that value. -/
theorem get?_set_self (name value : Text) (env : Environment) :
    (env.set name value).get? name = some value := by
  induction env with
  | nil => simp [set, get?]
  | cons entry rest ih =>
    obtain ⟨other, old⟩ := entry
    by_cases same : other = name
    · simp [set, same, get?]
    · have differs : (name == other) = false := by simpa using fun h => same h.symm
      simp only [get?] at ih ⊢
      simp [set, same, List.lookup_cons, differs, ih]

/-- Setting a name leaves every other name as it was. -/
theorem get?_set_of_ne {name other : Text} (value : Text) (env : Environment)
    (differs : other ≠ name) : (env.set name value).get? other = env.get? other := by
  have unequal : (other == name) = false := by simpa using differs
  induction env with
  | nil => simp [set, get?, List.lookup_cons, unequal]
  | cons entry rest ih =>
    obtain ⟨first, old⟩ := entry
    simp only [get?] at ih ⊢
    by_cases same : first = name
    · subst same
      simp [set, List.lookup_cons, unequal]
    · simp [set, same, List.lookup_cons, ih]

/-- The last assignment to a name counts, and where there is none the name is as it was. -/
theorem get?_setAll (env : Environment) (assignments : List (Text × Text)) (name : Text) :
    (env.setAll assignments).get? name =
      (assignments.reverse.lookup name).or (env.get? name) := by
  induction assignments generalizing env with
  | nil => rfl
  | cons assignment later ih =>
    obtain ⟨other, value⟩ := assignment
    have behind : (env.setAll ((other, value) :: later)).get? name = _ := ih (env.set other value)
    rw [behind, List.reverse_cons, List.lookup_append, Option.or_assoc]
    refine congrArg _ ?_
    by_cases same : name = other
    · rw [same, get?_set_self]
      simp
    · rw [get?_set_of_ne value env same]
      simp [List.lookup_cons, beq_false_of_ne same]

theorem mem_names_set {name value other : Text} {env : Environment} :
    other ∈ (env.set name value).map Prod.fst ↔ other = name ∨ other ∈ env.map Prod.fst := by
  induction env with
  | nil => simp [set]
  | cons entry rest ih =>
    obtain ⟨first, old⟩ := entry
    by_cases same : first = name
    · simp [set, same]
    · rw [set, if_neg same, List.map_cons, List.map_cons, List.mem_cons, List.mem_cons, ih]
      exact or_left_comm

/-- Setting a name gives no name a second value. -/
theorem nodup_set {env : Environment} (once : (env.map Prod.fst).Nodup) (name value : Text) :
    ((env.set name value).map Prod.fst).Nodup := by
  induction env with
  | nil => simp [set]
  | cons entry rest ih =>
    obtain ⟨first, old⟩ := entry
    obtain ⟨new, later⟩ := List.nodup_cons.mp once
    by_cases same : first = name
    · rw [set, if_pos same, ← same]
      exact once
    · rw [set, if_neg same, List.map_cons, List.nodup_cons, mem_names_set]
      exact ⟨not_or.mpr ⟨same, new⟩, ih later⟩

theorem nodup_setAll {env : Environment} (once : (env.map Prod.fst).Nodup)
    (assignments : List (Text × Text)) : ((env.setAll assignments).map Prod.fst).Nodup := by
  induction assignments generalizing env with
  | nil => exact once
  | cons assignment later ih => exact ih (nodup_set once assignment.1 assignment.2)

end Environment

/-- The variables of a running process, as the bytes they really are. -/
abbrev ProcessVariables := List (List UInt8 × List UInt8)

namespace ProcessVariables

/-- A name and its value as text, if both are text. -/
def asText? (name value : List UInt8) : Option (Text × Text) := do
  return (← Utf8.decode? name, ← Utf8.decode? value)

/-- The environment of those variables whose name and value are both text. Where a name is there
more than once, the last one counts. -/
def environment (vars : ProcessVariables) : Environment :=
  Environment.setAll [] (vars.filterMap fun (name, value) => asText? name value)

/-- The value of a variable, if it is set and is text. -/
def text? (vars : ProcessVariables) (name : Text) : Option Text :=
  (List.lookup (Utf8.encode name) vars).bind Utf8.decode?

end ProcessVariables

end Errand
