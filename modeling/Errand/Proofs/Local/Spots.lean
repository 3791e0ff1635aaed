/-
# The stages of a line in their places

With what a stage is started depends on its place in the line: on the builtins before it, on
the stage directly before it and on the stage directly behind it. A spot is a stage with what
stands around it, and `Spot.launch` says with what its process is started. Nothing is carried
along from one spot to the next.
-/
import Errand.Local.Line
import Errand.Proofs.Run.Builtins

namespace Errand.Local

open Run Shell

/-- Whether a stage changes the context and starts no process. -/
def isBuiltin (stage : Stage) : Bool :=
  stage.command.program? = some ['c', 'd'] ||
    stage.command.program? = some ['e', 'x', 'p', 'o', 'r', 't']

/-- The context behind a builtin. -/
def applied (context : Context) (builtin : Stage) : Context :=
  match builtin.args with
  | ['c', 'd'] :: words => context.changeDir words.head?
  | ['e', 'x', 'p', 'o', 'r', 't'] :: words => context.assignAll words
  | _ => context

/-- The context behind the builtins among some stages. -/
def contextBehind (start : Context) (stages : Pipeline) : Context :=
  (stages.filter isBuiltin).foldl applied start

/-- How many processes some stages start. -/
def processCount (stages : Pipeline) : Nat := stages.countP (!isBuiltin ·)

/-- A stage of a line, with the stages before it and those behind it. -/
structure Spot where
  before : Pipeline
  stage : Stage
  after : Pipeline

/-- The spots of stages that stand behind others. -/
def spotsFrom (before : Pipeline) : Pipeline → List Spot
  | [] => []
  | stage :: after => ⟨before, stage, after⟩ :: spotsFrom (before ++ [stage]) after

/-- The spots of a line, in order. -/
def spots (stages : Pipeline) : List Spot := spotsFrom [] stages

/-- Every stage has one spot. -/
theorem map_stage_spotsFrom (before stages : Pipeline) :
    (spotsFrom before stages).map Spot.stage = stages := by
  induction stages generalizing before with
  | nil => rfl
  | cons stage after ih => exact congrArg (stage :: ·) (ih (before ++ [stage]))

/-- A spot is a stage with what stands around it. -/
theorem exists_of_mem_spotsFrom {before stages : Pipeline} {spot : Spot}
    (member : spot ∈ spotsFrom before stages) :
    ∃ mid, spot.before = before ++ mid ∧ stages = mid ++ spot.stage :: spot.after := by
  induction stages generalizing before with
  | nil => cases member
  | cons stage after ih =>
      rw [spotsFrom] at member
      rcases List.mem_cons.mp member with rfl | later
      · exact ⟨[], (List.append_nil before).symm, rfl⟩
      · obtain ⟨mid, isBefore, rfl⟩ := ih later
        exact ⟨stage :: mid, by rw [isBefore, List.append_assoc]; rfl, rfl⟩

namespace Spot

def startsProcess (spot : Spot) : Bool := !isBuiltin spot.stage

/-- The number of its process, if it starts one. -/
def process? (spot : Spot) : Option ProcessId :=
  if isBuiltin spot.stage then none else some (processCount spot.before)

def isLast (spot : Spot) : Bool := spot.after.isEmpty

/-- Whether the stage directly behind it reads what it writes. -/
def feedsNext (spot : Spot) : Bool := spot.after.head?.any Stage.readsPrevious

/-- Whether it reads what the stage directly before it writes. A builtin writes nothing. -/
def readsProcess (spot : Spot) : Bool :=
  spot.stage.readsPrevious && spot.before.getLast?.any (!isBuiltin ·)

/-- What its process reads. -/
def input (options : Options) (spot : Spot) : Input :=
  if spot.readsProcess then .outputOf (processCount spot.before.dropLast)
  else if spot.before.isEmpty then options.input.elim .nothing .payload
  else .nothing

variable (start : Context) (options : Options) (spot : Spot)

/-- The context it is met in. -/
def context : Context := contextBehind start spot.before

/-- Its words after the one round of substitution. -/
def words : List Text := (spot.stage.command.expandFirst (spot.context start).env).args

/-- With what its process is started. -/
def launch : Launch where
  program := (spot.words start).headD []
  args := (spot.words start).tail
  cwd := (spot.context start).cwd
  env := (spot.context start).env
  input := spot.input options
  stdout := if spot.isLast || spot.feedsNext then .piped else .discarded
  stderr := if spot.isLast then .piped else .discarded

/-- What a call does when it comes to it. -/
def event : Event :=
  match spot.stage.args with
  | ['c', 'd'] :: words => .changedDir ((spot.context start).changeDir words.head?).cwd
  | ['e', 'x', 'p', 'o', 'r', 't'] :: words => .assigned words
  | _ => .launched (.stage spot.before.length) (spot.launch start options)

end Spot

/-- The process of the last spot, if it starts one. -/
def lastProcess? (spots : List Spot) : Option ProcessId := spots.getLast?.bind Spot.process?

/-! ## Builtins and processes -/

section Kinds

variable {stage : Stage} {words : List Text} (context : Context)

/-- The program of a stage says whether it is a builtin. -/
theorem isBuiltin_of_args {program : Text} (same : stage.args = program :: words) :
    isBuiltin stage =
      (decide (program = ['c', 'd']) || decide (program = ['e', 'x', 'p', 'o', 'r', 't'])) := by
  rw [Stage.args] at same
  rw [isBuiltin, Command.program?, same]
  simp

theorem isBuiltin_of_cd (same : stage.args = ['c', 'd'] :: words) : isBuiltin stage = true :=
  isBuiltin_of_args same

theorem isBuiltin_of_export (same : stage.args = ['e', 'x', 'p', 'o', 'r', 't'] :: words) :
    isBuiltin stage = true :=
  isBuiltin_of_args same

/-- A stage changes the directory, makes assignments or starts a process. -/
theorem builtin_or_process (stage : Stage) :
    (∃ words, stage.args = ['c', 'd'] :: words) ∨
      (∃ words, stage.args = ['e', 'x', 'p', 'o', 'r', 't'] :: words) ∨
      isBuiltin stage = false := by
  cases same : stage.args with
  | nil =>
      rw [Stage.args] at same
      refine .inr (.inr ?_)
      rw [isBuiltin, Command.program?, same]
      rfl
  | cons program words =>
      by_cases isCd : program = ['c', 'd']
      · exact .inl ⟨words, by rw [isCd]⟩
      by_cases isExport : program = ['e', 'x', 'p', 'o', 'r', 't']
      · exact .inr (.inl ⟨words, by rw [isExport]⟩)
      refine .inr (.inr ?_)
      rw [isBuiltin_of_args same, decide_eq_false isCd, decide_eq_false isExport]
      rfl

/-- A word stays a word when something is substituted in it. -/
theorem expandWords_ne_nil (env : Environment) {words : List Word} (some : words ≠ []) :
    Command.expandWords env words ≠ [] := by
  cases words with
  | nil => exact absurd rfl some
  | cons word words =>
      rw [Command.expandWords]
      split <;> exact List.cons_ne_nil _ _

/-- What is no builtin is started with its words as substituted. -/
theorem ofCommand_of_process (some : stage.command.words ≠ [])
    (noBuiltin : isBuiltin stage = false) :
    ∃ program args, (stage.command.expandFirst context.env).args = program :: args ∧
      Task.ofCommand context stage.command = .start program args := by
  have someArgs : (stage.command.expandFirst context.env).args ≠ [] := by
    simpa [Command.args, Command.expandFirst] using expandWords_ne_nil context.env some
  obtain ⟨program, args, same⟩ := List.exists_cons_of_ne_nil someArgs
  refine ⟨program, args, same, ?_⟩
  unfold Task.ofCommand
  split
  · next words isCd => rw [isBuiltin_of_cd isCd] at noBuiltin; cases noBuiltin
  · next words isExport => rw [isBuiltin_of_export isExport] at noBuiltin; cases noBuiltin
  · rw [same]

end Kinds

theorem contextBehind_concat (start : Context) (before : Pipeline) (stage : Stage) :
    contextBehind start (before ++ [stage]) =
      if isBuiltin stage then applied (contextBehind start before) stage
      else contextBehind start before := by
  by_cases builtin : isBuiltin stage = true <;> simp [contextBehind, builtin]

/-- What a stage does to the context of the stages behind it: `cd` moves to its first argument,
`export` makes the assignments of its arguments, and every other program changes nothing. -/
inductive Shifts (stage : Stage) (context : Context) : Context → Prop
  | cd {words : List Text} {cwd : Option Text} (args : stage.args = "cd".toList :: words)
    (moves : Moves (context.get? "HOME".toList) context.cwd (words.head?.getD []) cwd) :
    Shifts stage context ⟨cwd, context.env⟩
  | exports {words : List Text} {env : Environment} (args : stage.args = "export".toList :: words)
    (overlays : Overlays Assigns words context.env env)
    (once : (context.env.map Prod.fst).Nodup → (env.map Prod.fst).Nodup) :
    Shifts stage context ⟨context.cwd, env⟩
  | process (noCd : stage.command.program? ≠ some "cd".toList)
    (noExport : stage.command.program? ≠ some "export".toList) : Shifts stage context context

/-- One stage more shifts the context of the stages behind. -/
theorem shifts_contextBehind (start : Context) (before : Pipeline) (stage : Stage) :
    Shifts stage (contextBehind start before) (contextBehind start (before ++ [stage])) := by
  rw [contextBehind_concat]
  generalize contextBehind start before = context
  rcases builtin_or_process stage with ⟨words, isCd⟩ | ⟨words, isExport⟩ | noBuiltin
  · rw [if_pos (isBuiltin_of_cd isCd), applied, isCd]
    have shifts := Shifts.cd isCd (moves_changeDir context words.head?)
    rwa [← Context.env_changeDir context words.head?] at shifts
  · rw [if_pos (isBuiltin_of_export isExport), applied, isExport]
    have shifts := Shifts.exports isExport (overlays_assignAll context words)
      (nodup_assignAll context words)
    rwa [← cwd_assignAll context words] at shifts
  · rw [noBuiltin]
    simp only [isBuiltin, Bool.or_eq_false_iff, decide_eq_false_iff_not] at noBuiltin
    exact .process noBuiltin.1 noBuiltin.2

theorem processCount_concat (before : Pipeline) (stage : Stage) :
    processCount (before ++ [stage]) =
      if isBuiltin stage then processCount before else processCount before + 1 := by
  by_cases builtin : isBuiltin stage = true <;> simp [processCount, builtin]

theorem event_of_process {start : Context} {options : Options} {before after : Pipeline}
    {stage : Stage} (noBuiltin : isBuiltin stage = false) :
    Spot.event start options ⟨before, stage, after⟩ =
      .launched (.stage before.length) (Spot.launch start options ⟨before, stage, after⟩) := by
  unfold Spot.event
  split
  · next words isCd => rw [isBuiltin_of_cd isCd] at noBuiltin; cases noBuiltin
  · next words isExport => rw [isBuiltin_of_export isExport] at noBuiltin; cases noBuiltin
  · rfl

/-! ## Counting processes -/

/-- Counting processes is counting the spots that start one. -/
theorem length_filter_spotsFrom (before stages : Pipeline) :
    ((spotsFrom before stages).filter Spot.startsProcess).length = processCount stages := by
  induction stages generalizing before with
  | nil => rfl
  | cons stage after ih =>
      have later := ih (before ++ [stage])
      rw [processCount] at later ⊢
      rw [spotsFrom, List.filter_cons, List.countP_cons, ← later]
      by_cases builtin : isBuiltin stage = true <;> simp [Spot.startsProcess, builtin]

/-- The process of a spot is the one at its number. -/
theorem getElem?_filter_spotsFrom {before stages : Pipeline} {spot : Spot}
    (member : spot ∈ spotsFrom before stages) (starts : spot.startsProcess = true) :
    ((spotsFrom before stages).filter Spot.startsProcess)[
      processCount spot.before - processCount before]? = some spot := by
  obtain ⟨mid, isBefore, rfl⟩ := exists_of_mem_spotsFrom member
  have count : processCount spot.before - processCount before = processCount mid := by
    rw [isBefore, processCount, List.countP_append, ← processCount, ← processCount]
    exact Nat.add_sub_cancel_left _ _
  rw [count]
  clear member count
  induction mid generalizing before with
  | nil =>
      have here : (⟨before, spot.stage, spot.after⟩ : Spot) = spot := by
        rw [← List.append_nil before, ← isBefore]
      rw [List.nil_append, spotsFrom, here, List.filter_cons, if_pos starts]
      rfl
  | cons stage mid ih =>
      have further : spot.before = (before ++ [stage]) ++ mid := by
        rw [isBefore, List.append_assoc]
        rfl
      have later := ih further
      rw [List.cons_append, spotsFrom, List.filter_cons]
      by_cases builtin : isBuiltin stage = true
      · simpa [Spot.startsProcess, processCount, builtin] using later
      · simpa [Spot.startsProcess, processCount, builtin] using later

theorem getLast?_spotsFrom (before earlier : Pipeline) (last : Stage) :
    (spotsFrom before (earlier ++ [last])).getLast? = some ⟨before ++ earlier, last, []⟩ := by
  induction earlier generalizing before with
  | nil => simp [spotsFrom]
  | cons stage earlier ih =>
      have later := ih (before ++ [stage])
      rw [List.append_assoc, List.singleton_append] at later
      rw [List.cons_append, spotsFrom, List.getLast?_cons, later]
      rfl

/-- The last stage of a line has the last process, if it is no builtin. -/
theorem lastProcess?_spots {stages : Pipeline} {last : Stage}
    (isLast : stages.getLast? = some last) :
    lastProcess? (spots stages) =
      if isBuiltin last then none else some (processCount stages - 1) := by
  obtain ⟨earlier, rfl⟩ := List.getLast?_eq_some_iff.mp isLast
  rw [lastProcess?, spots, getLast?_spotsFrom, processCount_concat, List.nil_append,
    Option.bind_some, Spot.process?]
  by_cases builtin : isBuiltin last = true <;> simp [builtin]

end Errand.Local
