/-
# What a call begins with and what builtins change

A call begins where the caller says, with the variables of the process and those of the caller
laid over them. A change of the directory leads to its target as the call sees it, or home without
one. Assignments are laid over the variables as they are.

Laying variables over others is told by what is looked up afterwards: the last that is given to a
name counts. What gives a value to a name differs: bytes that spell the two, an entry of the
caller's, or a word with a `=` in it. So it is a parameter, and the three are one lemma.
-/
import Errand.Proofs.Text.Decoding
import Errand.Run.Context

namespace Errand.Run

/-! ## Directories -/

/-- The path that a path names as seen from a directory, which need not be known. -/
inductive SeenFrom : Option Text → Text → Text → Prop
  | nowhere (path : Text) : SeenFrom none path path
  | absolute (current rest : Text) : SeenFrom (some current) ('/' :: rest) ('/' :: rest)
  | below {current path : Text} (relative : path.head? ≠ some '/') (nonempty : current ≠ [])
    (isOpen : current.getLast? ≠ some '/') :
    SeenFrom (some current) path (current ++ '/' :: path)
  /-- The directory ends with a separator, or is empty. -/
  | behind {current path : Text} (relative : path.head? ≠ some '/')
    (closed : current = [] ∨ current.getLast? = some '/') :
    SeenFrom (some current) path (current ++ path)

/-- Where a change of the directory to a target leads. -/
inductive Moves (home : Option Text) : Option Text → Text → Option Text → Prop
  | target {cwd : Option Text} {target path : Text} (told : target ≠ [])
    (seen : SeenFrom cwd target path) : Moves home cwd target (some path)
  | home {cwd : Option Text} {directory path : Text} (known : home = some directory)
    (seen : SeenFrom cwd directory path) : Moves home cwd [] (some path)
  | homeless {cwd : Option Text} (unknown : home = none) : Moves home cwd [] cwd

theorem seenFrom_join (cwd : Option Text) (path : Text) :
    SeenFrom cwd path (cwd.elim path fun current => Path.join current path) := by
  cases cwd with
  | none => exact .nowhere path
  | some current =>
      show SeenFrom (some current) path (Path.join current path)
      by_cases absolute : Path.isAbsolute path = true
      · rw [Path.join_of_isAbsolute absolute]
        obtain ⟨rest, rfl⟩ := List.head?_eq_some_iff.mp (beq_iff_eq.mp absolute)
        exact .absolute current rest
      have relative : path.head? ≠ some '/' := fun same => absolute (beq_iff_eq.mpr same)
      rw [Bool.not_eq_true] at absolute
      by_cases closed : current = [] ∨ current.getLast? = some '/'
      · rw [Path.join_of_closed absolute closed]
        exact .behind relative closed
      · obtain ⟨nonempty, isOpen⟩ := not_or.mp closed
        rw [Path.join_of_open absolute nonempty isOpen]
        exact .below relative nonempty isOpen

theorem moves_changeDir (context : Context) (target : Option Text) :
    Moves (context.get? "HOME".toList) context.cwd (target.getD []) (context.changeDir target).cwd := by
  cases told : target.getD [] with
  | nil =>
      cases home : context.get? "HOME".toList with
      | none =>
          rw [Context.changeDir_homeless told home]
          exact .homeless rfl
      | some directory =>
          rw [Context.cwd_changeDir_home told home]
          exact .home rfl (seenFrom_join context.cwd directory)
  | cons c rest =>
      have given : target = some (c :: rest) := by
        cases target with
        | none => cases told
        | some path => exact congrArg some told
      rw [given, Context.cwd_changeDir_some (List.cons_ne_nil c rest)]
      exact .target (List.cons_ne_nil c rest) (seenFrom_join context.cwd (c :: rest))

/-! ## Variables -/

/-- The last of some things to give the name a value gives it this one. -/
def LastGives {α : Type} (gives : α → Text → Text → Prop) (things : List α)
    (name value : Text) : Prop :=
  ∃ earlier thing later, things = earlier ++ thing :: later ∧ gives thing name value ∧
    ∀ other ∈ later, ∀ different, ¬ gives other name different

/-- What some things give is laid over some variables. -/
structure Overlays {α : Type} (gives : α → Text → Text → Prop) (things : List α)
    (before after : Environment) : Prop where
  last : ∀ {name value}, LastGives gives things name value → after.get? name = some value
  kept : ∀ {name}, (∀ thing ∈ things, ∀ value, ¬ gives thing name value) →
    after.get? name = before.get? name

/-- A word gives the name in front of its first `=` what is behind it. -/
def Assigns (word name value : Text) : Prop :=
  name ≠ [] ∧ '=' ∉ name ∧ word = name ++ '=' :: value

/-- The context that a call begins with. -/
structure Begins (vars : ProcessVariables) (options : Options) (context : Context) : Prop where
  directory : context.cwd = options.workingDir
  laid : ∃ inherited,
    Overlays (fun entry name value => entry = (Utf8.encode name, Utf8.encode value)) vars []
        inherited ∧
      Overlays (fun entry name value => entry = (name, value)) options.env inherited context.env
  once : (context.env.map Prod.fst).Nodup

section Overlays

variable {α : Type} {gives : α → Text → Text → Prop} {read : α → Option (Text × Text)}

/-- Things that are read as assignments are laid over variables by making the assignments. -/
theorem overlays_setAll
    (reads : ∀ thing name value, read thing = some (name, value) ↔ gives thing name value)
    (things : List α) (env : Environment) :
    Overlays gives things env (env.setAll (things.filterMap read)) := by
  have unread {others : List α} {name : Text}
      (none : ∀ other ∈ others, ∀ value, ¬ gives other name value) :
      List.lookup name (others.filterMap read).reverse = .none := by
    rw [List.lookup_eq_none_iff]
    intro entry member
    obtain ⟨other, inOthers, isEntry⟩ :=
      List.mem_filterMap.mp (List.mem_reverse.mp member)
    rw [bne_iff_ne]
    rintro rfl
    exact none other inOthers entry.2 ((reads _ _ _).mp isEntry)
  constructor
  · rintro name value ⟨earlier, thing, later, rfl, isGiven, last⟩
    rw [Environment.get?_setAll, List.filterMap_append,
      List.filterMap_cons_some ((reads _ _ _).mpr isGiven), List.reverse_append,
      List.reverse_cons, List.lookup_append, List.lookup_append, unread last]
    simp
  · intro name none
    rw [Environment.get?_setAll, unread none]
    rfl

end Overlays

theorem asText?_eq_some_iff {entry : List UInt8 × List UInt8} {name value : Text} :
    ProcessVariables.asText? entry.1 entry.2 = some (name, value) ↔
      entry = (Utf8.encode name, Utf8.encode value) := by
  obtain ⟨nameBytes, valueBytes⟩ := entry
  simp [ProcessVariables.asText?, Option.bind_eq_some_iff, Utf8.decode?_eq_some_iff]

theorem begins_ofOptions (vars : ProcessVariables) (options : Options) :
    Begins vars options (.ofOptions vars options) where
  directory := rfl
  laid := by
    refine ⟨vars.environment, overlays_setAll (fun _ _ _ => asText?_eq_some_iff) vars [], ?_⟩
    have laid := overlays_setAll (fun entry name value => Option.some_inj (a := entry)
      (b := (name, value))) options.env vars.environment
    rwa [List.filterMap_some] at laid
  once := by
    have inherited : (vars.environment.map Prod.fst).Nodup :=
      @Environment.nodup_setAll [] List.nodup_nil _
    exact Environment.nodup_setAll inherited options.env

/-- The assignment that a word makes, if it makes one. -/
def assignment? (word : Text) : Option (Text × Text) :=
  (word.cut? '=').filter (!·.1.isEmpty)

theorem assignment?_eq_some_iff {word name value : Text} :
    assignment? word = some (name, value) ↔ Assigns word name value := by
  rw [assignment?, Option.filter_eq_some_iff, Text.cut?_eq_some_iff, Assigns]
  simp [and_comm, and_left_comm]

theorem assign_eq (context : Context) (word : Text) :
    context.assign word =
      (assignment? word).elim context fun (name, value) => context.set name value := by
  rw [Context.assign, assignment?]
  cases word.cut? '=' with
  | none => rfl
  | some parts =>
      obtain ⟨name, value⟩ := parts
      cases name <;> rfl

theorem assignAll_eq (context : Context) (words : List Text) :
    context.assignAll words =
      { context with env := context.env.setAll (words.filterMap assignment?) } := by
  induction words generalizing context with
  | nil => rfl
  | cons word words ih =>
      have behind : context.assignAll (word :: words) = _ := ih (context.assign word)
      rw [behind, assign_eq]
      cases assigned : assignment? word with
      | none => rw [List.filterMap_cons_none assigned]; rfl
      | some assignment => rw [List.filterMap_cons_some assigned]; rfl

/-- Assignments are laid over the variables, and all else stays as it is. -/
theorem overlays_assignAll (context : Context) (words : List Text) :
    Overlays Assigns words context.env (context.assignAll words).env := by
  rw [assignAll_eq]
  exact overlays_setAll (fun _ _ _ => assignment?_eq_some_iff) words context.env

theorem nodup_assignAll (context : Context) (words : List Text)
    (once : (context.env.map Prod.fst).Nodup) :
    ((context.assignAll words).env.map Prod.fst).Nodup := by
  rw [assignAll_eq]
  exact Environment.nodup_setAll once _

theorem cwd_assignAll (context : Context) (words : List Text) :
    (context.assignAll words).cwd = context.cwd := by
  rw [assignAll_eq]

end Errand.Run
