/-
# Starting the stages of a line

What is carried along while the stages of a line are started is told by `Reached`: the context
behind the builtins so far, the number of processes, and the process that the next stage may
read. One stage more leads from what is reached before it to what is reached behind it, so the
stages are launched as their spots say, in order, up to the first launch that is refused.
-/
import Errand.Proofs.Local.Spots

namespace Errand.Local

open Run Shell

/-- The process that the next stage may read: that of the stage directly before, where the next
one reads it. -/
def feeder? (before after : Pipeline) : Option ProcessId :=
  if before.getLast?.any (!isBuiltin ·) && after.head?.any Stage.readsPrevious then
    some (processCount before.dropLast)
  else none

/-- The input of a spot is that which the stage gets. -/
theorem Spot.input_eq (options : Options) (before : Pipeline) (stage : Stage) (after : Pipeline) :
    inputOf options before.length stage (feeder? before (stage :: after)) =
      Spot.input options ⟨before, stage, after⟩ := by
  unfold inputOf feeder? Spot.input Spot.readsProcess
  cases reads : stage.readsPrevious <;>
    cases fed : before.getLast?.any (!isBuiltin ·) <;>
    cases before <;> cases payload : options.input <;> simp_all

/-- Where the starting of stages stands between two parts of a line. -/
structure Reached (start : Context) (before after : Pipeline) (progress : Progress) : Prop where
  context : progress.context = contextBehind start before
  started : progress.started = List.range (processCount before)
  feeder : progress.feeder = feeder? before after

namespace Reached

variable {start : Context} {before after : Pipeline} {stage : Stage} {progress : Progress}

theorem initial (after : Pipeline) : Reached start [] after (.initial start) :=
  ⟨rfl, rfl, rfl⟩

/-- A builtin leaves nothing to read. -/
theorem builtin (reached : Reached start before (stage :: after) progress)
    (isBuiltin : isBuiltin stage = true) (trace : Trace) :
    Reached start (before ++ [stage]) after
      { progress with
        context := applied progress.context stage
        feeder := none
        trace := trace } where
  context := by rw [contextBehind_concat, if_pos isBuiltin, ← reached.context]
  started := by rw [processCount_concat, if_pos isBuiltin, ← reached.started]
  feeder := by simp [feeder?, isBuiltin]

/-- A process leaves its output to the stage behind it, if that one reads it. -/
theorem process (reached : Reached start before (stage :: after) progress)
    (noBuiltin : isBuiltin stage = false) (trace : Trace) :
    Reached start (before ++ [stage]) after
      { progress with
        feeder := if after.head?.any Stage.readsPrevious then some progress.nextProcess else none
        started := progress.started ++ [progress.nextProcess]
        trace := trace } where
  context := by rw [contextBehind_concat, noBuiltin, ← reached.context]; rfl
  started := by
    rw [processCount_concat, noBuiltin, Progress.nextProcess, reached.started, List.length_range]
    exact List.range_succ.symm
  feeder := by
    rw [Progress.nextProcess, reached.started, List.length_range]
    simp [feeder?, noBuiltin]

end Reached

/-- What becomes of the spots that are still to come, of `count` processes in all: either all
that they ask for is done, or one of them is refused and those behind it are not come to. -/
inductive Outcome (start : Context) (options : Options) (count : Nat) :
    List Spot → Trace → Except Error (Option ProcessId) × Progress → Prop
  | done {spots : List Spot} {trace : Trace} {final : Progress}
      (started : final.started = List.range count)
      (events : final.trace = trace ++ spots.map (Spot.event start options)) :
      Outcome start options count spots trace (.ok (lastProcess? spots), final)
  | refused {earlier : List Spot} {spot : Spot} {later : List Spot} {trace : Trace}
      {final : Progress} {fault : OsFault} (starts : spot.startsProcess = true)
      (events : final.trace =
        trace ++ ((earlier ++ [spot]).map (Spot.event start options) ++ [.refused fault])) :
      Outcome start options count (earlier ++ spot :: later) trace
        (.error (.spawn (spot.launch start options).program fault), final)

section Start

variable {host : Host} {options : Options} {start : Context} {before after : Pipeline}
  {stage : Stage} {progress : Progress}

/-- With the last spot all is done. -/
theorem Outcome.last {count : Nat} {spot : Spot} {trace : Trace} {final : Progress}
    (started : final.started = List.range count)
    (events : final.trace = trace ++ [spot.event start options]) :
    Outcome start options count [spot] trace (.ok spot.process?, final) :=
  .done started events

/-- A spot that has been done with is one more of those done. -/
theorem Outcome.cons {count : Nat} {spot : Spot} {spots : List Spot} {trace : Trace}
    {result : Except Error (Option ProcessId) × Progress}
    (outcome : Outcome start options count spots (trace ++ [spot.event start options]) result)
    (goesOn : spots = [] → spot.process? = none) :
    Outcome start options count (spot :: spots) trace result := by
  cases outcome with
  | @done _ _ final started events =>
      have sameLast : lastProcess? spots = lastProcess? (spot :: spots) := by
        cases spots with
        | nil => exact (goesOn rfl).symm
        | cons next later => rw [lastProcess?, lastProcess?, List.getLast?_cons_cons]
      rw [sameLast]
      exact .done started (by rw [events, List.append_assoc]; rfl)
  | @refused earlier other later _ final fault starts events =>
      rw [← List.cons_append]
      exact .refused starts (by rw [events, List.append_assoc]; rfl)

/-- A stage that starts a process is launched as its spot says. -/
theorem launchOf_eq (reached : Reached start before (stage :: after) progress)
    {program : Text} {args : List Text}
    (same : (stage.command.expandFirst progress.context.env).args = program :: args) :
    launchOf options before.length stage after.isEmpty (after.head?.any Stage.readsPrevious)
      progress program args = Spot.launch start options ⟨before, stage, after⟩ := by
  rw [reached.context] at same
  rw [launchOf, Spot.launch, Spot.words, Spot.context, same, reached.feeder, reached.context,
    Spot.input_eq]
  rfl

/-- A builtin is carried out and nothing is started. -/
theorem startStages_builtin (reached : Reached start before (stage :: after) progress)
    (builtin : isBuiltin stage = true) :
    startStages host options before.length (stage :: after) progress =
      startStages host options (before.length + 1) after
        { progress with
          context := applied progress.context stage
          feeder := none
          trace := progress.trace ++ [Spot.event start options ⟨before, stage, after⟩] } := by
  rw [startStages]
  rcases builtin_or_process stage with ⟨words, isCd⟩ | ⟨words, isExport⟩ | noBuiltin
  · have task : Task.ofCommand progress.context stage.command = .changeDir words.head? := by
      rw [Stage.args] at isCd
      simp only [Task.ofCommand, isCd]
    simp only [task, applied, Spot.event, isCd, Spot.context, ← reached.context]
    rfl
  · have task : Task.ofCommand progress.context stage.command = .assign words := by
      rw [Stage.args] at isExport
      simp only [Task.ofCommand, isExport]
    simp only [task, applied, Spot.event, isExport]
    rfl
  · rw [noBuiltin] at builtin
    cases builtin

/-- Any other stage is launched as its spot says. If that is not refused, the stages behind it
come next. -/
theorem startStages_process (reached : Reached start before (stage :: after) progress)
    (some : stage.command.words ≠ []) (noBuiltin : isBuiltin stage = false) :
    let spot : Spot := ⟨before, stage, after⟩
    let trace := progress.trace ++ [spot.event start options]
    startStages host options before.length (stage :: after) progress =
      match host.refusal progress.trace (spot.launch start options) with
      | .some fault =>
        (.error (.spawn (spot.launch start options).program fault),
          { progress with feeder := none, trace := trace ++ [.refused fault] })
      | none =>
        let progress :=
          { progress with
            feeder := if after.head?.any Stage.readsPrevious then .some progress.nextProcess
              else none
            started := progress.started ++ [progress.nextProcess]
            trace := trace }
        if after.isEmpty then (.ok spot.process?, progress)
        else startStages host options (before.length + 1) after progress := by
  intro spot trace
  obtain ⟨program, args, same, task⟩ := ofCommand_of_process progress.context some noBuiltin
  have launch : launchOf options before.length stage after.isEmpty
      (after.head?.any Stage.readsPrevious) progress program args = spot.launch start options :=
    launchOf_eq reached same
  have named : program = (spot.launch start options).program := by
    rw [← launch]
    rfl
  have numbered : spot.process? = .some progress.nextProcess := by
    rw [Spot.process?, noBuiltin, Progress.nextProcess, reached.started, List.length_range]
    rfl
  have event : spot.event start options = .launched (.stage before.length)
      (spot.launch start options) := event_of_process noBuiltin
  rw [startStages, numbered]
  simp only [task, launch, Local.start, trace, event]
  cases host.refusal progress.trace (spot.launch start options) with
  | some fault => simp only [named]
  | none => rfl

/-- The stages behind what is reached are started as their spots say. The induction is on the stages
still to come: one moves from the front of `after` to the end of `before`, and `Reached` goes along
with it. -/
theorem outcome_startStages (some : ∀ stage ∈ after, stage.command.words ≠ [])
    (reached : Reached start before after progress) :
    Outcome start options (processCount (before ++ after)) (spotsFrom before after) progress.trace
      (startStages host options before.length after progress) := by
  induction after generalizing before progress with
  | nil =>
      rw [startStages, List.append_nil]
      exact .done reached.started (List.append_nil _).symm
  | cons stage after ih =>
      obtain ⟨someHere, someLater⟩ := List.forall_mem_cons.mp some
      have behind {progress : Progress}
          (reached : Reached start (before ++ [stage]) after progress) :
          Outcome start options (processCount (before ++ stage :: after))
            (spotsFrom (before ++ [stage]) after) progress.trace
            (startStages host options (before.length + 1) after progress) := by
        have later := ih someLater reached
        rwa [List.append_assoc, List.length_append] at later
      rw [spotsFrom]
      by_cases builtin : isBuiltin stage = true
      · rw [startStages_builtin reached builtin]
        refine (behind (reached.builtin builtin _)).cons fun _ => ?_
        rw [Spot.process?, if_pos builtin]
      · rw [Bool.not_eq_true] at builtin
        rw [startStages_process reached someHere builtin]
        cases host.refusal progress.trace (Spot.launch start options ⟨before, stage, after⟩) with
        | some fault =>
            rw [← List.nil_append (⟨before, stage, after⟩ :: spotsFrom (before ++ [stage]) after)]
            refine .refused ?_ ?_
            · rw [Spot.startsProcess, builtin]
              rfl
            · rw [List.nil_append, List.map_singleton, ← List.append_assoc]
        | none =>
            have here := reached.process builtin
              (progress.trace ++ [Spot.event start options ⟨before, stage, after⟩])
            cases after with
            | nil => exact .last here.started rfl
            | cons next after => exact (behind here).cons (by simp [spotsFrom])

end Start

end Errand.Local
