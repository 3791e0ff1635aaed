/-
# The context of one call

A call tracks its own directory and variables, so that `cd` and `export` in one call
never reach another. Directories are not checked: a wrong one shows when the next
process is started there.
-/
import Errand.Run.Options
import Errand.Run.Path

namespace Errand.Run

/-- The directory and the variables that the next process starts with. -/
structure Context where
  /-- Without a directory, processes start where the caller is. -/
  cwd : Option Text
  env : Environment
  deriving DecidableEq, Repr

namespace Context

/-- No directory and no variables. -/
def empty : Context := ⟨none, []⟩

/-- A directory and no variables. -/
def atDirectory (cwd : Text) : Context := ⟨some cwd, []⟩

/-- The context a call starts in: the text variables of the running process, with
the caller's own laid over them. -/
def ofOptions (vars : ProcessVariables) (options : Options) : Context :=
  ⟨options.workingDir, vars.environment.setAll options.env⟩

/-- The value of a variable. -/
def get? (context : Context) (name : Text) : Option Text := context.env.get? name

/-- The context with a variable set. -/
def set (context : Context) (name value : Text) : Context :=
  { context with env := context.env.set name value }

/-- The context in the directory `target`, or in the home directory without one. A
relative target is seen from the current directory. -/
def changeDir (context : Context) (target : Option Text) : Context :=
  let wanted := match target with
    | some (c :: rest) => some (c :: rest)
    | _ => context.get? "HOME".toList
  match wanted with
  | none => context
  | some path =>
    match context.cwd with
    | some current => { context with cwd := some (Path.join current path) }
    | none => { context with cwd := some path }

/-- The context with the assignment that a word makes. Words without `=` and words
that name nothing make none. -/
def assign (context : Context) (word : Text) : Context :=
  match word.cut? '=' with
  | some (c :: name, value) => context.set (c :: name) value
  | _ => context

/-- The context with the assignments that words of the form `NAME=VALUE` make. -/
def assignAll (context : Context) (words : List Text) : Context :=
  words.foldl assign context

section ChangeDir

variable {context : Context} {target : Option Text} {path : Text}

theorem env_changeDir (context : Context) (target : Option Text) :
    (context.changeDir target).env = context.env := by
  unfold changeDir
  dsimp only
  split
  · rfl
  · split <;> rfl

/-- A change of the directory leads to its target, as it is seen from the current one. -/
theorem cwd_changeDir_some (nonempty : path ≠ []) :
    (context.changeDir (some path)).cwd =
      some (context.cwd.elim path fun current => Path.join current path) := by
  cases path with
  | nil => exact absurd rfl nonempty
  | cons c rest =>
    simp only [changeDir]
    split
    · next current inDirectory => rw [inDirectory]; rfl
    · next nowhere => rw [nowhere]; rfl

/-- Without a target it leads home. -/
theorem cwd_changeDir_home (untold : target.getD [] = [])
    (known : context.get? "HOME".toList = some path) :
    (context.changeDir target).cwd =
      some (context.cwd.elim path fun current => Path.join current path) := by
  have wanted : context.changeDir target = context.changeDir none := by
    rcases target with - | - | ⟨c, rest⟩
    · rfl
    · rfl
    · cases untold
  rw [wanted]
  unfold changeDir
  simp only [known]
  split
  · next current inDirectory => rw [inDirectory]; rfl
  · next nowhere => rw [nowhere]; rfl

/-- Without a target and a home it changes nothing. -/
theorem changeDir_homeless (untold : target.getD [] = [])
    (unknown : context.get? "HOME".toList = none) : context.changeDir target = context := by
  rcases target with - | - | ⟨c, rest⟩
  · simp only [changeDir, unknown]
  · simp only [changeDir, unknown]
  · cases untold

end ChangeDir

end Context

end Errand.Run
