/-
# What the call of a line does

A call of one line launches the spots of the line that start a process, each once and in order.
It waits for the last of them and reports that one alone, or reports success if a builtin comes
last. A launch that is refused is the last one, and its fault is what the call reports.
-/
import Errand.Proofs.Local.Starting
import Errand.Proofs.Shell.Splitting

namespace Errand.Local

open Run Shell

namespace Event

/-- The launch that an event is, with the part of the call it is for. -/
def launch? : Event → Option (Origin × Launch)
  | .launched origin launch => some (origin, launch)
  | _ => none

/-- The fault that an event reports of the launch before it. -/
def fault? : Event → Option OsFault
  | .refused fault => some fault
  | _ => none

/-- The process that an event waits for, for how long, and what comes of it. -/
def wait? : Event → Option (ProcessId × Option Duration × Except OsFault Capture)
  | .waited process limit outcome => some (process, limit, outcome)
  | _ => none

end Event

namespace Trace

/-- What is read off the events of a trace, in order. -/
def collect {α : Type} (read : Event → Option α) (trace : Trace) : List α :=
  trace.filterMap read

/-- All launches of a call. -/
abbrev launches (trace : Trace) : List (Origin × Launch) := trace.collect Event.launch?

/-- The launches of a call that failed. -/
abbrev refusals (trace : Trace) : List OsFault := trace.collect Event.fault?

/-- What a call waits for. -/
abbrev waits (trace : Trace) : List (ProcessId × Option Duration × Except OsFault Capture) :=
  trace.collect Event.wait?

/-- An event that does not occur in the first part of a trace stands behind it. -/
theorem exists_of_append_eq {first second before after : Trace} {event : Event}
    (splits : first ++ second = before ++ event :: after) (unseen : event ∉ first) :
    ∃ more, before = first ++ more ∧ second = more ++ event :: after := by
  rcases List.append_eq_append_iff.mp splits with ⟨more, here, further⟩ | ⟨more, here, further⟩
  · exact ⟨more, here, further⟩
  · cases more with
    | nil => exact ⟨[], by rw [here, List.append_nil, List.append_nil], further.symm⟩
    | cons other more =>
        obtain ⟨rfl, -⟩ := List.cons.inj further
        refine absurd ?_ unseen
        rw [here]
        exact List.mem_append_right before List.mem_cons_self

section Collect

variable {α : Type} {read : Event → Option α}

@[simp] theorem collect_nil : Trace.collect read [] = [] := rfl

@[simp] theorem collect_cons (event : Event) (trace : Trace) :
    Trace.collect read (event :: trace) = (read event).toList ++ trace.collect read := by
  rw [collect, List.filterMap_cons]
  cases read event <;> rfl

@[simp] theorem collect_append (trace more : Trace) :
    Trace.collect read (trace ++ more) = trace.collect read ++ more.collect read :=
  List.filterMap_append

/-- Cleaning up only kills and reaps. -/
theorem collect_cleanUp (killed : ∀ process, read (.killed process) = none)
    (reaped : ∀ process, read (.reaped process) = none) (processes : List ProcessId) :
    Trace.collect read (cleanUp processes) = [] := by
  induction processes with
  | nil => rfl
  | cons process processes ih =>
      rw [cleanUp, List.flatMap_cons, collect_append, ← cleanUp, ih]
      simp [killed, reaped]

end Collect

section CleanUp

variable (processes : List ProcessId)

@[simp] theorem launches_cleanUp : Trace.launches (cleanUp processes) = [] :=
  collect_cleanUp (fun _ => rfl) (fun _ => rfl) processes

@[simp] theorem refusals_cleanUp : Trace.refusals (cleanUp processes) = [] :=
  collect_cleanUp (fun _ => rfl) (fun _ => rfl) processes

@[simp] theorem waits_cleanUp : Trace.waits (cleanUp processes) = [] :=
  collect_cleanUp (fun _ => rfl) (fun _ => rfl) processes

end CleanUp

/-- Without a refusal every launch leads to a process. -/
theorem started_of_refusals_eq_nil {trace : Trace} (noRefusal : trace.refusals = []) :
    trace.started = trace.launches.map Prod.snd := by
  fun_induction Trace.started trace with
  | case1 => rfl
  | case2 origin launch fault events ih => cases noRefusal
  | case3 origin launch events _ ih => exact congrArg (launch :: ·) (ih noRefusal)
  | case4 event events _ notLaunched ih =>
      cases event with
      | launched origin launch => exact (notLaunched origin launch rfl).elim
      | refused fault => cases noRefusal
      | changedDir | assigned | waited | killed | reaped | nothingToWait => exact ih noRefusal

end Trace

section Spots

variable (start : Context) (options : Options)

theorem launch?_event (spot : Spot) :
    (spot.event start options).launch? =
      if spot.startsProcess then some (.stage spot.before.length, spot.launch start options)
      else none := by
  unfold Spot.event Spot.startsProcess
  split
  · next words isCd => rw [isBuiltin_of_cd isCd]; rfl
  · next words isExport => rw [isBuiltin_of_export isExport]; rfl
  · next noCd noExport =>
      rcases builtin_or_process spot.stage with ⟨words, isCd⟩ | ⟨words, isExport⟩ | noBuiltin
      · exact absurd isCd (noCd words)
      · exact absurd isExport (noExport words)
      · rw [noBuiltin]; rfl

/-- The spots that start a process are launched, each once and in order. -/
theorem launches_map_event (spots : List Spot) :
    Trace.collect Event.launch? (spots.map (Spot.event start options)) =
      (spots.filter Spot.startsProcess).map fun spot =>
        (.stage spot.before.length, spot.launch start options) := by
  induction spots with
  | nil => rfl
  | cons spot spots ih =>
      rw [List.map_cons, Trace.collect_cons, launch?_event, ih]
      by_cases starts : spot.startsProcess = true <;> simp [starts]

/-- What the spots ask for holds no refusal and no wait. -/
theorem refusals_map_event (spots : List Spot) :
    Trace.collect Event.fault? (spots.map (Spot.event start options)) = [] := by
  rw [Trace.collect, List.filterMap_eq_nil_iff, List.forall_mem_map]
  intro spot _
  unfold Spot.event
  split <;> rfl

theorem waits_map_event (spots : List Spot) :
    Trace.collect Event.wait? (spots.map (Spot.event start options)) = [] := by
  rw [Trace.collect, List.filterMap_eq_nil_iff, List.forall_mem_map]
  intro spot _
  unfold Spot.event
  split <;> rfl

/-- Without a refusal the processes are those that were launched, each at its number. -/
theorem started_of_launches {trace : Trace} {stages : Pipeline}
    (noRefusal : trace.refusals = [])
    (launches : trace.launches = ((spots stages).filter Spot.startsProcess).map fun spot =>
      (.stage spot.before.length, spot.launch start options)) :
    trace.started = ((spots stages).filter Spot.startsProcess).map (Spot.launch start options) ∧
      ∀ spot ∈ (spots stages).filter Spot.startsProcess,
        trace.started[processCount spot.before]? = some (spot.launch start options) := by
  have started : trace.started =
      ((spots stages).filter Spot.startsProcess).map (Spot.launch start options) := by
    rw [Trace.started_of_refusals_eq_nil noRefusal, launches, List.map_map]
    rfl
  refine ⟨started, ?_⟩
  intro spot member
  obtain ⟨inSpots, starts⟩ := List.mem_filter.mp member
  have numbered := getElem?_filter_spotsFrom inSpots starts
  rw [started, List.getElem?_map]
  exact congrArg (Option.map (Spot.launch start options)) numbered

end Spots

/-- A capture is one wait, after which at most that process is cleaned up. -/
theorem exists_of_capture (host : Host) (process : ProcessId) (limit : Option Duration)
    (trace : Trace) : ∃ outcome cleaned,
      capture host process limit trace =
        (outcome, trace ++ [.waited process limit outcome] ++ cleanUp cleaned) ∧
      ∀ other ∈ cleaned, other = process := by
  cases outcome : host.wait trace process limit with
  | error fault => exact ⟨.error fault, [], by simp [capture, outcome, cleanUp], by simp⟩
  | ok captured =>
      by_cases late : captured.timedOut = true
      · exact ⟨.ok captured, [process], by simp [capture, outcome, late], by simp⟩
      · exact ⟨.ok captured, [], by simp [capture, outcome, late, cleanUp], by simp⟩

section Call

variable {host : Host} {options : Options} {start : Context} (line : Text) {stages : Pipeline}

/-- A call whose stages are all started waits for the last of them, if that is a process. -/
theorem runPipeline_of_done {last : Stage} (isLast : stages.getLast? = some last)
    {final : Progress}
    (starts : startStages host options 0 stages (.initial start) =
      (.ok (lastProcess? (spots stages)), final))
    (events : final.trace = (spots stages).map (Spot.event start options)) :
    let call := runPipeline host options start line stages
    let processes := (spots stages).filter Spot.startsProcess
    call.2.refusals = [] ∧
      call.2.launches = processes.map (fun spot =>
        (.stage spot.before.length, spot.launch start options)) ∧
      (isBuiltin last = true → call.1 = .ok builtinResult ∧ call.2.waits = []) ∧
      (isBuiltin last = false → ∃ captured,
        call.2.waits = [(processes.length - 1, options.timeout, captured)] ∧
        call.1 = (captured.mapError .io).map resultOf) := by
  intro call processes
  have count : processes.length = processCount stages := length_filter_spotsFrom [] stages
  rw [lastProcess?_spots isLast] at starts
  simp only [call, runPipeline, starts]
  by_cases builtin : isBuiltin last = true
  · rw [if_pos builtin]
    refine ⟨?_, ?_, fun _ => ⟨rfl, ?_⟩, fun noBuiltin => absurd builtin (by simp [noBuiltin])⟩
    · simp [events, refusals_map_event, Event.fault?]
    · simp [events, launches_map_event, Event.launch?, processes]
    · simp [events, waits_map_event, Event.wait?]
  · rw [if_neg builtin]
    obtain ⟨outcome, cleaned, captured, -⟩ :=
      exists_of_capture host (processCount stages - 1) options.timeout final.trace
    simp only [captured]
    refine ⟨?_, ?_, fun isBuiltin => absurd isBuiltin builtin, fun _ => ⟨outcome, ?_, rfl⟩⟩
    · simp [events, refusals_map_event, Event.fault?]
    · simp [events, launches_map_event, Event.launch?, processes]
    · simp [events, waits_map_event, Event.wait?, count]

/-- A call that cannot start a stage ends there. -/
theorem runPipeline_of_refused {earlier : List Spot} {spot : Spot} {final : Progress}
    {fault : OsFault}
    (starts : startStages host options 0 stages (.initial start) =
      (.error (.spawn (spot.launch start options).program fault), final))
    (events : final.trace =
      (earlier ++ [spot]).map (Spot.event start options) ++ [.refused fault]) :
    let call := runPipeline host options start line stages
    call.2.refusals = [fault] ∧
      call.2.launches = ((earlier ++ [spot]).filter Spot.startsProcess).map (fun spot =>
        (.stage spot.before.length, spot.launch start options)) ∧
      call.1 = .error (.spawn (spot.launch start options).program fault) := by
  intro call
  simp only [call, runPipeline, starts]
  refine ⟨?_, ?_, trivial⟩
  · rw [events, Trace.refusals, Trace.collect_append, Trace.collect_append, refusals_map_event]
    simp [Event.fault?]
  · rw [events, Trace.launches, Trace.collect_append, Trace.collect_append, launches_map_event]
    simp [Event.launch?]

/-- A line that can be split has a last stage, and its call starts at its first spot. -/
theorem exists_outcome_of_runLine (host : Host) (vars : ProcessVariables) (options : Options)
    (splits : Pipeline.split line = .ok stages) :
    let start := Context.ofOptions vars options
    ∃ last, stages.getLast? = some last ∧
      runLine host vars options line = runPipeline host options start line stages ∧
      Outcome start options (processCount stages) (spots stages) []
        (startStages host options 0 stages (.initial start)) := by
  intro start
  obtain ⟨first, later, rfl, -⟩ := Pipeline.exists_first_of_split splits
  refine ⟨_, List.getLast?_cons, by rw [runLine, splits], ?_⟩
  exact outcome_startStages (Pipeline.words_ne_nil_of_split splits) (.initial _)

end Call

/-- What a call reports of the process that it has waited for: its outputs as text without blanks at
either end, and its exit code, unless the time ran out. -/
structure Reports (captured : Capture) (result : Result) : Prop where
  stdout : result.stdout = (Utf8.decode captured.stdout).trim
  stderr : result.stderr = (Utf8.decode captured.stderr).trim
  exitCode : ∀ code, result.exitCode = some code ↔
    captured.status = some (.exited code) ∨
      ∃ signal, captured.status = some (.killedBy signal) ∧ code = 128 + signal
  timedOut : result.timedOut = true ↔ captured.status = none

theorem reports_resultOf (captured : Capture) : Reports captured (resultOf captured) := by
  have closed : resultOf captured = ⟨Output.settle captured.stdout, Output.settle captured.stderr,
      captured.status.map Status.code, captured.status.isNone⟩ := by
    obtain ⟨stdout, stderr, status⟩ := captured
    cases status <;> rfl
  rw [closed]
  refine ⟨rfl, rfl, fun code => ?_, Option.isNone_iff_eq_none⟩
  cases captured.status with
  | none => simp
  | some status => cases status <;> simp [Status.code, eq_comm]

/-- A call begins with the variables of the process and the caller's over them, and each stage
shifts the context of those behind it. The stages are started as their spots say, and the call
reports the last of them or the first that cannot be started. -/
theorem runLine_wiring (host : Host) (vars : ProcessVariables) (options : Options) {line : Text}
    {stages : Pipeline} (splits : Pipeline.split line = .ok stages) :
    let start := Context.ofOptions vars options
    let processes := (spots stages).filter Spot.startsProcess
    let call := runLine host vars options line
    Begins vars options start ∧
    contextBehind start [] = start ∧
    (∀ before stage,
      Shifts stage (contextBehind start before) (contextBehind start (before ++ [stage]))) ∧
    (∀ captured, Reports captured (resultOf captured)) ∧
    processes.map Spot.stage = stages.filter (!isBuiltin ·) ∧
    (call.2.refusals = [] →
      call.2.launches = processes.map (fun spot =>
        (.stage spot.before.length, spot.launch start options)) ∧
      call.2.started = processes.map (Spot.launch start options) ∧
      (∀ spot ∈ processes,
        call.2.started[processCount spot.before]? = some (spot.launch start options)) ∧
      ∃ last, stages.getLast? = some last ∧
        (isBuiltin last = true → call.1 = .ok ⟨[], [], some 0, false⟩ ∧ call.2.waits = []) ∧
        (isBuiltin last = false → ∃ captured,
          call.2.waits = [(processes.length - 1, options.timeout, captured)] ∧
          call.1 = (captured.mapError .io).map resultOf)) ∧
    ∀ fault ∈ call.2.refusals, ∃ earlier spot later,
      processes = earlier ++ spot :: later ∧
      call.2.launches = (earlier ++ [spot]).map (fun spot =>
        (.stage spot.before.length, spot.launch start options)) ∧
      call.1 = .error (.spawn (spot.launch start options).program fault) := by
  intro start processes call
  have isCall : call = runPipeline host options start line stages := by
    simp only [call, runLine, splits]
    rfl
  obtain ⟨first, later, nonempty, -⟩ := Pipeline.exists_first_of_split splits
  obtain ⟨last, isLast⟩ : ∃ last, stages.getLast? = some last := by
    rw [nonempty]
    exact ⟨_, List.getLast?_cons⟩
  have inLine : processes.map Spot.stage = stages.filter (!isBuiltin ·) := by
    rw [← map_stage_spotsFrom [] stages, List.filter_map]
    rfl
  rw [isCall]
  refine ⟨begins_ofOptions vars options, rfl, shifts_contextBehind start, reports_resultOf, inLine,
    ?_⟩
  generalize starts : startStages host options 0 stages (.initial start) = result
  have outcome : Outcome start options (processCount stages) (spots stages) [] result := by
    rw [← starts]
    exact outcome_startStages (Pipeline.words_ne_nil_of_split splits) (.initial stages)
  generalize inOrder : spots stages = all at outcome
  cases outcome with
  | @done _ _ final _ events =>
      subst inOrder
      obtain ⟨noRefusal, launches, ofBuiltin, ofProcess⟩ :=
        runPipeline_of_done line isLast starts events
      obtain ⟨started, numbered⟩ := started_of_launches start options noRefusal launches
      refine ⟨fun _ => ⟨launches, started, numbered, last, isLast, ofBuiltin, ofProcess⟩, ?_⟩
      rw [noRefusal]
      exact List.forall_mem_nil _
  | @refused earlier spot later _ final fault isProcess events =>
      obtain ⟨refusals, launches, failed⟩ := runPipeline_of_refused line starts events
      rw [refusals]
      refine ⟨fun noRefusal => absurd noRefusal (List.cons_ne_nil _ _), ?_⟩
      intro found member
      obtain rfl := List.mem_singleton.mp member
      refine ⟨earlier.filter Spot.startsProcess, spot, later.filter Spot.startsProcess, ?_, ?_,
        failed⟩
      · simp only [processes, inOrder, List.filter_append, List.filter_cons, isProcess, if_true]
      · rw [launches, List.filter_append, List.filter_singleton, isProcess]
        rfl

/-- A host that starts everything and on which everything succeeds at once. -/
def obliging : Host := ⟨fun _ _ => none, fun _ _ _ => .ok ⟨[], [], some (.exited 0)⟩⟩

/-- Two changes of the directory and an assignment, with a second `=` in its value, then a stage that
nothing reads and a pipe. -/
theorem pipe_behind_builtins_is_wired :
    let output := Utf8.encode "a\nb \n".toList
    let host : Host := ⟨fun _ _ => none, fun _ _ _ => .ok ⟨output, [], some (.exited 3)⟩⟩
    let vars : ProcessVariables := [(Utf8.encode "HOME".toList, Utf8.encode "/srv".toList)]
    let options := Options.empty.withVariable "A".toList "x".toList
    let line := "cd; cd sub; export A=b=c; echo $A; ls | sort -u".toList
    let env := [("HOME".toList, "/srv".toList), ("A".toList, "b=c".toList)]
    let call := runLine host vars options line
    let launch (program : String) (args : List String) :=
      Launch.mk program.toList (args.map String.toList) (some "/srv/sub".toList) env
    call.2.started = [launch "echo" ["b=c"] .nothing .discarded .discarded,
      launch "ls" [] .nothing .piped .discarded,
      launch "sort" ["-u"] (.outputOf 1) .piped .piped] ∧
    call.2.waits = [(2, none, .ok ⟨output, [], some (.exited 3)⟩)] ∧
    call.1 = .ok ⟨"a\nb".toList, [], some 3, false⟩ := by
  intro output host vars options line env call launch
  let stages : Pipeline := [⟨.ofTexts ["cd".toList], false⟩,
    ⟨.ofTexts ["cd".toList, "sub".toList], false⟩,
    ⟨.ofTexts ["export".toList, "A=b=c".toList], false⟩,
    ⟨⟨[Word.ofText "echo".toList, [.reference ['A'] false]]⟩, false⟩,
    ⟨.ofTexts ["ls".toList], false⟩, ⟨.ofTexts ["sort".toList, "-u".toList], true⟩]
  have splits : Pipeline.split line = .ok stages := by decide +kernel
  have noRefusal : call.2.refusals = [] := by decide +kernel
  obtain ⟨-, -, -, -, -, wired, -⟩ := runLine_wiring host vars options splits
  obtain ⟨-, started, -, last, isLast, -, ofProcess⟩ := wired noRefusal
  obtain rfl := Option.some.inj isLast
  obtain ⟨captured, waits, reported⟩ := ofProcess (by decide)
  have waited : call.2.waits = [(2, none, .ok ⟨output, [], some (.exited 3)⟩)] := by decide +kernel
  have sameWait := (List.cons.inj (waits.symm.trans waited)).1
  obtain rfl := congrArg (·.2.2) sameWait
  exact ⟨started.trans (by decide +kernel), waited, reported.trans (by decide +kernel)⟩

end Errand.Local
