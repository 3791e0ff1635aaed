/-
# No process outlives its call

A call may end in many ways: a line that cannot be split, a launch that is refused at any stage, a
wait that fails, a wait whose time runs out, a builtin at the end. Each of them leaves another
number of processes behind. What is claimed is one thing about all of them: whatever was started
has been killed and reaped behind the point where it was started, and nothing else was killed. A
single line moreover lets its processes run until its last stage has been waited for, if that is a
process and all stages could be started.
-/
import Errand.Proofs.Local.Payload

namespace Errand.Local

open Run Shell

namespace Trace

/-- A process is killed and later reaped, and it was started before that. -/
def Ended (trace : Trace) (process : ProcessId) : Prop :=
  ∃ before between after : Trace,
    trace = before ++ .killed process :: (between ++ .reaped process :: after) ∧
      process < before.started.length

/-- All that was started has ended, and nothing else was killed. -/
structure Cleared (trace : Trace) : Prop where
  ended : ∀ process < trace.started.length, trace.Ended process
  own : ∀ process, .killed process ∈ trace → process < trace.started.length

theorem Ended.append {trace : Trace} {process : ProcessId} (ended : trace.Ended process)
    (more : Trace) : Ended (trace ++ more) process := by
  obtain ⟨before, between, after, rfl, started⟩ := ended
  refine ⟨before, between, after ++ more, ?_, started⟩
  simp only [List.append_assoc, List.cons_append]

theorem cleared_nil : Cleared [] where
  ended := by
    intro process started
    cases started
  own := by
    intro process killed
    cases killed

/-! ## Cleaning up -/

@[simp] theorem killed_mem_cleanUp {process : ProcessId} {processes : List ProcessId} :
    .killed process ∈ cleanUp processes ↔ process ∈ processes := by
  simp [cleanUp]

/-- Nothing is started while processes are cleaned up. -/
theorem started_append_cleanUp (trace : Trace) (processes : List ProcessId) :
    Trace.started (trace ++ cleanUp processes) = trace.started := by
  rw [started_append, started_cleanUp, List.append_nil]
  intro fault events same
  cases processes <;> cases same

theorem ended_cleanUp {trace : Trace} {processes : List ProcessId} {process : ProcessId}
    (member : process ∈ processes) (started : process < trace.started.length) :
    Ended (trace ++ cleanUp processes) process := by
  obtain ⟨earlier, later, rfl⟩ := List.append_of_mem member
  refine ⟨trace ++ cleanUp earlier, [], cleanUp later, ?_, ?_⟩
  · simp [cleanUp]
  · rwa [started_append_cleanUp]

/-- Cleaning up all that was started and has not ended clears a trace, as long as nothing is cleaned
up that was not started. -/
theorem cleared_cleanUp {trace : Trace} {processes : List ProcessId}
    (all : ∀ process < trace.started.length, trace.Ended process ∨ process ∈ processes)
    (own : ∀ process, .killed process ∈ trace ∨ process ∈ processes →
      process < trace.started.length) :
    Cleared (trace ++ cleanUp processes) where
  ended := by
    intro process started
    rw [started_append_cleanUp] at started
    cases all process started with
    | inl ended => exact ended.append _
    | inr member => exact ended_cleanUp member started
  own := by
    intro process killed
    rw [started_append_cleanUp]
    apply own
    rwa [List.mem_append, killed_mem_cleanUp] at killed

end Trace

/-! ## A single line -/

/-- What the starting of stages has to keep for the cleaning up: the processes on the list are those
that were started, and none has been killed. -/
structure Listed (progress : Progress) : Prop where
  started : progress.started = List.range progress.trace.started.length
  quiet : ∀ process, .killed process ∉ progress.trace

namespace Listed

variable {progress : Progress}

theorem initial (start : Context) : Listed (.initial start) where
  started := rfl
  quiet := by
    intro process killed
    cases killed

/-- The list has to grow by one process for every launch that leads to one. -/
theorem grow (listed : Listed progress) {events : Trace} {launches : List Launch}
    {final : Progress} (trace : final.trace = progress.trace ++ events)
    (goesOn : ∀ fault later, events ≠ .refused fault :: later)
    (starts : events.started = launches)
    (list : final.started =
      progress.started ++ List.range' progress.started.length launches.length)
    (noKill : ∀ process, .killed process ∉ events) : Listed final where
  started := by
    rw [list, trace, Trace.started_append _ goesOn, starts, List.length_append, List.range_add,
      List.range'_eq_map_range, listed.started, List.length_range]
  quiet := by
    intro process
    rw [trace, List.mem_append]
    exact not_or.mpr ⟨listed.quiet process, noKill process⟩

/-- An event that starts and kills nothing leaves the list as it is. -/
theorem note (listed : Listed progress) {event : Event} {final : Progress}
    (trace : final.trace = progress.trace ++ [event]) (list : final.started = progress.started)
    (silent : Trace.started [event] = []) (noFault : event.fault? = none)
    (noKill : ∀ process, event ≠ .killed process) : Listed final := by
  apply listed.grow trace ?_ silent (by rw [list]; exact (List.append_nil _).symm) ?_
  · rintro fault later ⟨⟩
    cases noFault
  · intro process killed
    exact noKill process (List.mem_singleton.mp killed).symm

theorem mem_started (listed : Listed progress) {process : ProcessId} :
    process ∈ progress.started ↔ process < progress.trace.started.length := by
  rw [listed.started, List.mem_range]

/-- Cleaning up the list, however often, clears the call. -/
theorem cleared (listed : Listed progress) {cleaned : List ProcessId}
    (same : ∀ process, process ∈ cleaned ↔ process ∈ progress.started) :
    Trace.Cleared (progress.trace ++ cleanUp cleaned) := by
  apply Trace.cleared_cleanUp
  · intro process started
    exact .inr ((same process).mpr (listed.mem_started.mpr started))
  · intro process killed
    cases killed with
    | inl killed => exact absurd killed (listed.quiet process)
    | inr member => exact listed.mem_started.mp ((same process).mp member)

/-- Behind what is on the list, nothing is killed before the cleaning up. -/
theorem prefix_of_killed (listed : Listed progress) {cleaned : List ProcessId}
    {before after : Trace} {process : ProcessId}
    (splits : progress.trace ++ cleanUp cleaned = before ++ .killed process :: after) :
    progress.trace <+: before := by
  obtain ⟨more, here, -⟩ := Trace.exists_of_append_eq splits (listed.quiet process)
  exact ⟨more, here.symm⟩

end Listed

/-- All stages that can be started are, and the process to wait for is one of the list. -/
theorem listed_startStages (host : Host) (options : Options) (index : Nat) (stages : Pipeline)
    {progress : Progress} (listed : Listed progress) :
    let result := startStages host options index stages progress
    Listed result.2 ∧ ∀ last, result.1 = .ok (some last) → last ∈ result.2.started := by
  induction stages generalizing index progress with
  | nil =>
      refine ⟨listed, ?_⟩
      rintro last ⟨⟩
  | cons stage later ih =>
      intro result
      simp only [result, startStages]
      cases Task.ofCommand progress.context stage.command with
      | changeDir target =>
          apply ih
          exact listed.note rfl rfl rfl rfl (by simp)
      | assign words =>
          apply ih
          exact listed.note rfl rfl rfl rfl (by simp)
      | nothing => exact ih (index + 1) ⟨listed.started, listed.quiet⟩
      | start program args =>
          simp only [start]
          generalize launchOf options index stage later.isEmpty
            (later.head?.any Stage.readsPrevious) progress program args = launch
          cases host.refusal progress.trace launch with
          | some fault =>
              refine ⟨?_, by rintro last ⟨⟩⟩
              apply listed.grow (List.append_assoc _ _ _) ?_ rfl (List.append_nil _).symm ?_
              · rintro fault later ⟨⟩
              · simp
          | none =>
              have grown : Listed { progress with
                  feeder := if later.head?.any Stage.readsPrevious then some progress.nextProcess
                    else none
                  started := progress.started ++ [progress.nextProcess]
                  trace := progress.trace ++ [.launched (.stage index) launch] } := by
                apply listed.grow rfl ?_ rfl rfl ?_
                · rintro fault later ⟨⟩
                · simp
              cases isLast : later.isEmpty with
              | true =>
                  refine ⟨grown, ?_⟩
                  rintro last ⟨⟩
                  exact List.mem_append_right _ (List.mem_singleton_self _)
              | false => exact ih (index + 1) grown

/-- Why a call of one line may already kill its processes. -/
inductive MayKill (options : Options) (stages : Pipeline) (outcome : Except Error Result)
    (trace : Trace) : Prop
  /-- The process of the last stage has been waited for. -/
  | waited {last : ProcessId} {captured : Except OsFault Capture}
      (isLast : lastProcess? (spots stages) = some last)
      (returned : .waited last options.timeout captured ∈ trace)
  /-- A stage could not be started, and that is what the call reports. -/
  | failing {program : Text} {fault : OsFault} (refused : .refused fault ∈ trace)
      (fails : outcome = .error (.spawn program fault))
  /-- The last stage is no process. -/
  | builtin {last : Stage} (isLast : stages.getLast? = some last)
      (builtin : isBuiltin last = true)

theorem MayKill.append {options : Options} {stages : Pipeline} {outcome : Except Error Result}
    {trace : Trace} (mayKill : MayKill options stages outcome trace) (more : Trace) :
    MayKill options stages outcome (trace ++ more) := by
  cases mayKill with
  | waited isLast returned => exact .waited isLast (List.mem_append_left more returned)
  | failing refused fails => exact .failing (List.mem_append_left more refused) fails
  | builtin isLast builtin => exact .builtin isLast builtin

/-- A call of one line cleans up exactly what it has started, as the last thing it does, and has a
reason to. -/
theorem exists_listed_of_runLine (host : Host) (vars : ProcessVariables) (options : Options)
    {line : Text} {stages : Pipeline} (splits : Pipeline.split line = .ok stages) :
    let call := runLine host vars options line
    ∃ (progress : Progress) (cleaned : List ProcessId), Listed progress ∧
      (∀ process, process ∈ cleaned ↔ process ∈ progress.started) ∧
      call.2 = progress.trace ++ cleanUp cleaned ∧
      MayKill options stages call.1 progress.trace := by
  intro call
  obtain ⟨last, isLast, isCall, outcome⟩ :=
    exists_outcome_of_runLine line host vars options splits
  simp only [call, isCall, runPipeline]
  obtain ⟨listed, onList⟩ := listed_startStages host options 0 stages
    (.initial (.ofOptions vars options))
  generalize starts : startStages host options 0 stages (.initial (.ofOptions vars options)) =
    result at outcome listed onList
  generalize inOrder : spots stages = all at outcome
  cases outcome with
  | @refused earlier spot later _ final fault isProcess events =>
      refine ⟨final, final.started, listed, fun _ => .rfl, rfl, .failing ?_ rfl⟩
      rw [events]
      simp
  | @done _ _ final =>
      subst inOrder
      cases numbered : lastProcess? (spots stages) with
      | none =>
          have builtin : isBuiltin last = true := by
            by_contra noBuiltin
            rw [lastProcess?_spots isLast, if_neg noBuiltin] at numbered
            cases numbered
          let ending : Progress :=
            { final with trace := final.trace ++ [.nothingToWait line] }
          have endingListed : Listed ending := listed.note rfl rfl rfl rfl (by simp)
          exact ⟨ending, ending.started, endingListed, fun _ => .rfl, rfl, .builtin isLast builtin⟩
      | some process =>
          obtain ⟨captured, cleaned, captures, own⟩ :=
            exists_of_capture host process options.timeout final.trace
          let ending : Progress :=
            { final with trace := final.trace ++ [.waited process options.timeout captured] }
          have endingListed : Listed ending := listed.note rfl rfl rfl rfl (by simp)
          refine ⟨ending, cleaned ++ ending.started, endingListed, ?_, ?_,
            .waited numbered (List.mem_append_right _ (List.mem_singleton_self _))⟩
          · intro other
            rw [List.mem_append]
            refine ⟨fun member => ?_, .inr⟩
            rcases member with isLast | member
            · rw [own other isLast]
              exact onList process (congrArg Except.ok numbered)
            · exact member
          · simp only [captures, ending, cleanUp, List.flatMap_append, List.append_assoc]

/-! ## A list of lines -/

/-- A cleared trace stays one when all that is started behind it is cleaned up. -/
theorem Trace.Cleared.grow {trace events : Trace} (cleared : trace.Cleared)
    {launches : List Launch} {processes : List ProcessId}
    (goesOn : ∀ fault later, events ≠ .refused fault :: later)
    (starts : events.started = launches) (noKill : ∀ process, .killed process ∉ events)
    (all : ∀ process, process ∈ processes ↔
      trace.started.length ≤ process ∧ process < trace.started.length + launches.length) :
    Trace.Cleared (trace ++ events ++ cleanUp processes) := by
  have started : Trace.started (trace ++ events) = trace.started ++ launches := by
    rw [Trace.started_append _ goesOn, starts]
  apply Trace.cleared_cleanUp
  · intro process inside
    rw [started, List.length_append] at inside
    by_cases earlier : process < trace.started.length
    · exact .inl ((cleared.ended process earlier).append events)
    · exact .inr ((all process).mpr ⟨Nat.le_of_not_lt earlier, inside⟩)
  · intro process killed
    rw [started, List.length_append]
    rcases killed with killed | member
    · rcases List.mem_append.mp killed with earlier | here
      · exact Nat.lt_add_right _ (cleared.own process earlier)
      · exact absurd here (noKill process)
    · exact ((all process).mp member).2

/-- One line of a list leaves no process behind, whatever becomes of it. -/
theorem cleared_of_lineOutcome {host : Host} {limit : Option Duration} {origin : Origin}
    {launch : Launch} {trace after : Trace} {result : Except Error Capture}
    (cleared : trace.Cleared)
    (outcome : LineOutcome host limit origin launch trace.started.length trace (result, after)) :
    after.Cleared ∧
      ∀ captured, result = .ok captured → after.started.length = trace.started.length + 1 := by
  cases outcome with
  | @refused fault refusal =>
      have starts : Trace.started [.launched origin launch, .refused fault] = [] := rfl
      have quiet : Trace.Cleared (trace ++ [.launched origin launch, .refused fault] ++
          cleanUp []) := by
        apply cleared.grow ?_ starts (by simp) ?_
        · rintro fault later ⟨⟩
        · intro process
          rw [List.length_nil]
          simp
      rw [cleanUp, List.flatMap_nil, List.append_nil] at quiet
      refine ⟨quiet, ?_⟩
      rintro captured ⟨⟩
  | @waited outcome cleaned accepted own =>
      have goesOn : ∀ fault later, [.launched origin launch,
          .waited trace.started.length limit outcome] ≠ Event.refused fault :: later := by
        rintro fault later ⟨⟩
      have starts : Trace.started [.launched origin launch,
          .waited trace.started.length limit outcome] = [launch] := rfl
      constructor
      · apply cleared.grow goesOn starts (by simp)
        intro process
        rw [List.mem_append, List.mem_singleton, List.length_singleton]
        constructor
        · intro member
          have same : process = trace.started.length := member.elim (own process) id
          rw [same]
          exact ⟨Nat.le_refl _, Nat.lt_succ_self _⟩
        · rintro ⟨lower, upper⟩
          exact .inr (Nat.le_antisymm (Nat.lt_succ_iff.mp upper) lower)
      · intro captured _
        rw [Trace.started_append_cleanUp, Trace.started_append _ goesOn, starts,
          List.length_append, List.length_singleton]

/-- The lines still to come leave no process behind. -/
theorem cleared_runLinesFrom (host : Host) (limit : Option Duration) (lines : List Text)
    (context : Context) (payload : Option (List UInt8)) (tally : Tally) :
    Trace.Cleared (runLinesFrom host limit lines context payload 0 tally []).2 := by
  let keeps (executed : Nat) (_ : Tally) (trace : Trace) : Prop :=
    trace.Cleared ∧ trace.started.length = executed
  let gives (_ : Except Error Tally) (trace : Trace) : Prop := trace.Cleared
  apply @runLinesFrom_induct host limit keeps gives
  case done =>
    intro executed tally trace kept
    exact kept.1
  case unread =>
    intro executed tally trace fault kept
    exact kept.1
  case failed =>
    rintro executed tally trace origin launch error after ⟨cleared, rfl⟩ outcome
    exact (cleared_of_lineOutcome cleared outcome).1
  case late =>
    rintro executed tally trace origin launch captured after ⟨cleared, rfl⟩ outcome timedOut
    exact (cleared_of_lineOutcome cleared outcome).1
  case goesOn =>
    rintro executed tally trace origin launch captured after ⟨cleared, rfl⟩ outcome timedOut
    obtain ⟨clearedAfter, oneMore⟩ := cleared_of_lineOutcome cleared outcome
    exact ⟨clearedAfter, oneMore captured rfl⟩
  case kept => exact ⟨Trace.cleared_nil, rfl⟩

/-! ## Both forms -/

/-- Whatever a call does and however it returns, each process it has started has been killed and
reaped, and it has killed no other. A single line kills none before the last stage has been waited
for, unless a stage could not be started or the last stage is a builtin. -/
theorem no_process_outlives_its_call (host : Host) (vars : ProcessVariables)
    (options : Options) :
    (∀ call, Trace.Cleared (Local.run host vars options call).2) ∧
      ∀ line before process after,
        (runLine host vars options line).2 = before ++ .killed process :: after →
          ∃ stages, Pipeline.split line = .ok stages ∧
            MayKill options stages (runLine host vars options line).1 before := by
  constructor
  · intro call
    cases call with
    | one line =>
        rw [Local.run]
        cases splits : Pipeline.split line with
        | error fault =>
            rw [runLine, splits]
            exact Trace.cleared_nil
        | ok stages =>
            obtain ⟨progress, cleaned, listed, same, trace, -⟩ :=
              exists_listed_of_runLine host vars options splits
            rw [trace]
            exact listed.cleared same
    | many lines =>
        exact cleared_runLinesFrom host options.timeout lines _ _ _
  · intro line before process after trace
    cases splits : Pipeline.split line with
    | error fault =>
        rw [runLine, splits] at trace
        cases before <;> cases trace
    | ok stages =>
        obtain ⟨progress, cleaned, listed, -, whole, mayKill⟩ :=
          exists_listed_of_runLine host vars options splits
        obtain ⟨more, rfl⟩ := listed.prefix_of_killed (whole.symm.trans trace)
        exact ⟨stages, rfl, mayKill.append more⟩

/-- A host without the program `missing`, on which no process ends in time. -/
def stalling : Host where
  refusal := fun _ launch => if launch.program = "missing".toList then some .notFound else none
  wait := fun _ _ _ => .ok ⟨[], [], none⟩

/-- A pipe whose time runs out is cleared, and not before its last stage was waited for. A pipe of
which the second stage cannot be started is cleared of the first. -/
theorem stalled_and_broken_pipes_are_cleared :
    let options := Options.empty.withTimeout (.ofMillis 200)
    let stalled := runLine stalling [] options "sleep 5 | cat".toList
    let broken := runLine stalling [] options "sleep 5 | missing".toList
    (stalled.2.started.length = 2 ∧ stalled.2.Ended 0 ∧
      ∃ before after captured, stalled.2 = before ++ .killed 1 :: after ∧
        .waited 1 options.timeout captured ∈ before) ∧
    broken.2.started.length = 1 ∧ broken.1 = .error (.spawn "missing".toList .notFound) ∧
      broken.2.Ended 0 := by
  intro options stalled broken
  obtain ⟨cleared, mayKill⟩ := no_process_outlives_its_call stalling [] options
  have two : stalled.2.started.length = 2 := by decide +kernel
  have one : broken.2.started.length = 1 := by decide +kernel
  refine ⟨⟨two, (cleared (.one _)).ended 0 (by rw [Local.run, two]; decide), ?_⟩, one,
    by decide +kernel, (cleared (.one _)).ended 0 (by rw [Local.run, one]; decide)⟩
  obtain ⟨before, between, after, trace, -⟩ :=
    (cleared (.one "sleep 5 | cat".toList)).ended 1 (by rw [Local.run, two]; decide)
  obtain ⟨stages, splits, reason⟩ := mayKill _ before 1 _ trace
  have known : Pipeline.split "sleep 5 | cat".toList =
      .ok [⟨.ofTexts ["sleep".toList, "5".toList], false⟩, ⟨.ofTexts ["cat".toList], true⟩] := by
    decide +kernel
  obtain rfl := Except.ok.inj (splits.symm.trans known)
  cases reason with
  | @waited last captured isLast returned =>
      obtain rfl := Option.some.inj isLast
      exact ⟨before, _, captured, trace, returned⟩
  | @failing program fault refused fails =>
      have finished : stalled.1.isOk = true := by decide +kernel
      have fails : stalled.1 = .error (.spawn program fault) := fails
      rw [fails] at finished
      cases finished
  | builtin isLast builtin =>
      obtain rfl := Option.some.inj isLast
      cases builtin

end Errand.Local
