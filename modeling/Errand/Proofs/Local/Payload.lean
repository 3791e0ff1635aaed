/-
# Who reads the payload

A payload is given to one process or to none, in both forms of a call. A list of lines keeps it
until a line is executed. A single line gives it to the stage at its front, and a builtin there
takes it away from all stages behind: no process of such a line reads it.
-/
import Errand.Proofs.Local.LineByLine

namespace Errand.Local

open Run Shell

/-! ## What is started in parts of a trace -/

namespace Trace

/-- What is started in two parts of a trace, where the fault of the last launch of the first
part would not be reported in the second. -/
theorem started_append (earlier : Trace) {later : Trace}
    (goesOn : ∀ fault events, later ≠ .refused fault :: events) :
    Trace.started (earlier ++ later) = earlier.started ++ later.started := by
  fun_induction Trace.started earlier with
  | case1 => rfl
  | case2 origin launch fault events ih => exact ih
  | case3 origin launch events notRefused ih =>
      rw [List.cons_append, Trace.started, ih]
      · rfl
      · intro fault rest same
        cases events with
        | nil => exact goesOn fault rest same
        | cons event events =>
            injection same with same
            exact notRefused fault events (by rw [same])
  | case4 event events _ notLaunched ih =>
      cases event with
      | launched origin launch => exact (notLaunched origin launch rfl).elim
      | changedDir | assigned | refused | waited | killed | reaped | nothingToWait => exact ih

@[simp] theorem started_cleanUp_append (processes : List ProcessId) (later : Trace) :
    Trace.started (cleanUp processes ++ later) = later.started := by
  induction processes with
  | nil => rfl
  | cons process processes ih => exact ih

@[simp] theorem started_cleanUp (processes : List ProcessId) :
    Trace.started (cleanUp processes) = [] := by
  have started := started_cleanUp_append processes []
  rwa [List.append_nil] at started

end Trace

/-! ## A single line -/

section Spots

variable (start : Context) (options : Options)

theorem started_map_event (spots : List Spot) :
    Trace.started (spots.map (Spot.event start options)) =
      (spots.filter Spot.startsProcess).map (Spot.launch start options) := by
  have launches : Trace.launches (spots.map (Spot.event start options)) = _ :=
    launches_map_event start options spots
  rw [Trace.started_of_refusals_eq_nil (refusals_map_event start options spots), launches,
    List.map_map]
  rfl

/-- A launch that is refused starts nothing, and the stages before it are started. -/
theorem started_refused (earlier : List Spot) {spot : Spot} (starts : spot.startsProcess = true)
    (fault : OsFault) (processes : List ProcessId) :
    Trace.started ((earlier ++ [spot]).map (Spot.event start options) ++ [.refused fault] ++
      cleanUp processes) =
        (earlier.filter Spot.startsProcess).map (Spot.launch start options) := by
  have isLaunch : spot.event start options =
      .launched (.stage spot.before.length) (spot.launch start options) :=
    event_of_process (by simpa [Spot.startsProcess] using starts)
  have last : Trace.started (spot.event start options :: .refused fault :: cleanUp processes) =
      [] := by
    rw [isLaunch, Trace.started, Trace.started_cleanUp]
  rw [List.map_append, List.map_singleton, List.append_assoc, List.append_assoc,
    List.singleton_append, List.singleton_append, Trace.started_append, last, List.append_nil,
    started_map_event]
  · rw [isLaunch]
    rintro fault events ⟨⟩

/-- The processes of a call are those of the first spots of its line. -/
theorem exists_taken_of_runLine (host : Host) (vars : ProcessVariables) {line : Text}
    {stages : Pipeline} (splits : Pipeline.split line = .ok stages) :
    ∃ taken, taken <+: spots stages ∧ (runLine host vars options line).2.started =
      (taken.filter Spot.startsProcess).map (Spot.launch (.ofOptions vars options) options) := by
  obtain ⟨last, isLast, isCall, outcome⟩ :=
    exists_outcome_of_runLine line host vars options splits
  rw [isCall]
  generalize starts : startStages host options 0 stages (.initial (.ofOptions vars options)) =
    result at outcome
  generalize inOrder : spots stages = all at outcome
  cases outcome with
  | @done _ _ final _ events =>
      subst inOrder
      obtain ⟨noRefusal, launches, -⟩ := runPipeline_of_done line isLast starts events
      exact ⟨spots stages, List.prefix_rfl, (started_of_launches _ _ noRefusal launches).1⟩
  | @refused earlier spot later _ final fault isProcess events =>
      refine ⟨earlier, List.prefix_append _ _, ?_⟩
      simp only [runPipeline, starts]
      rw [events, List.nil_append]
      exact started_refused _ options earlier isProcess fault final.started

/-- The stages before a spot are those of the spots before it. -/
theorem before_of_spotsFrom_eq {before stages : Pipeline} {earlier later : List Spot} {spot : Spot}
    (inOrder : spotsFrom before stages = earlier ++ spot :: later) :
    spot.before = before ++ earlier.map Spot.stage := by
  induction earlier generalizing before stages with
  | nil =>
      cases stages with
      | nil => cases inOrder
      | cons stage after =>
          injection inOrder with here
          rw [← here]
          exact (List.append_nil before).symm
  | cons first earlier ih =>
      cases stages with
      | nil => cases inOrder
      | cons stage after =>
          injection inOrder with here further
          rw [ih further, ← here, List.append_assoc]
          rfl

/-- Only the stage at the front of a line reads the payload. -/
theorem Spot.input_ne_payload {spot : Spot} (behind : spot.before ≠ []) (bytes : List UInt8) :
    spot.input options ≠ .payload bytes := by
  rw [Spot.input, List.isEmpty_eq_false_iff.mpr behind]
  split <;> exact fun same => by cases same

/-- Behind builtins alone there is nothing to read. -/
theorem Spot.input_of_builtins {spot : Spot} (behind : spot.before ≠ [])
    (builtins : ∀ stage ∈ spot.before, isBuiltin stage = true) :
    spot.input options = .nothing := by
  have silent : spot.readsProcess = false := by
    rw [Spot.readsProcess, List.getLast?_eq_some_getLast behind, Option.any_some,
      builtins _ (List.getLast_mem behind)]
    exact Bool.and_false _
  rw [Spot.input, silent, List.isEmpty_eq_false_iff.mpr behind]
  rfl

/-- The stage at the front of a line reads nothing but the payload. -/
theorem Spot.input_of_front {spot : Spot} (front : spot.before = []) :
    spot.input options = options.input.elim .nothing .payload := by
  have silent : spot.readsProcess = false := by
    rw [Spot.readsProcess, front]
    exact Bool.and_false _
  rw [Spot.input, silent, front]
  rfl

/-- The first process of a line reads the payload if it is the first stage, and nothing
otherwise. The other processes do not read the payload. -/
theorem inputs_of_taken {stage : Stage} {rest : Pipeline} {taken later : List Spot} {first : Spot}
    (inLine : taken <+: spots (stage :: rest))
    (starts : taken.filter Spot.startsProcess = first :: later) :
    first.input options =
        (if isBuiltin stage then .nothing else options.input.elim .nothing .payload) ∧
      ∀ spot ∈ later, ∀ bytes, spot.input options ≠ .payload bytes := by
  obtain ⟨untaken, inOrder⟩ := inLine
  obtain ⟨skipped, others, rfl, noProcess, isProcess, rfl⟩ := List.filter_eq_cons_iff.mp starts
  rw [List.append_assoc, List.cons_append] at inOrder
  have firstBehind : first.before = skipped.map Spot.stage := by
    rw [before_of_spotsFrom_eq inOrder.symm, List.nil_append]
  constructor
  · cases skipped with
    | nil =>
        injection inOrder with here
        have noBuiltin : isBuiltin stage = false := by
          simpa [here, Spot.startsProcess] using isProcess
        rw [noBuiltin]
        exact Spot.input_of_front options firstBehind
    | cons front skipped =>
        injection inOrder with here
        have builtins : ∀ stage ∈ first.before, isBuiltin stage = true := by
          rw [firstBehind, List.forall_mem_map]
          simpa [Spot.startsProcess] using noProcess
        have isFront : isBuiltin stage = true :=
          builtins stage (by rw [firstBehind, here]; exact List.mem_cons_self)
        rw [if_pos isFront]
        exact Spot.input_of_builtins options (by rw [firstBehind]; exact List.cons_ne_nil _ _)
          builtins
  · intro spot member
    obtain ⟨earlierOthers, laterOthers, rfl⟩ :=
      List.append_of_mem (List.mem_filter.mp member).1
    have whole : spotsFrom [] (stage :: rest) =
        (skipped ++ first :: earlierOthers) ++ spot :: (laterOthers ++ untaken) := by
      rw [← spots, ← inOrder]
      simp only [List.append_assoc, List.cons_append]
    refine Spot.input_ne_payload options ?_
    rw [before_of_spotsFrom_eq whole]
    simp

end Spots

/-! ## A list of lines -/

/-- The first of some processes reads the payload, if there is one, and the others read
nothing. -/
def FirstReads (payload : Option (List UInt8)) (launches : List Launch) : Prop :=
  ∀ first later, launches = first :: later →
    first.input = payload.elim .nothing .payload ∧ ∀ launch ∈ later, launch.input = .nothing

theorem FirstReads.nil (payload : Option (List UInt8)) : FirstReads payload [] := by
  rintro first later ⟨⟩

/-- With no payload left none of the processes reads anything. -/
theorem FirstReads.forall_none {launches : List Launch} (reads : FirstReads none launches) :
    ∀ launch ∈ launches, launch.input = .nothing := by
  cases launches with
  | nil => exact List.forall_mem_nil _
  | cons first later => exact List.forall_mem_cons.mpr (reads first later rfl)

/-- Behind the process that reads the payload the others have none to read. -/
theorem FirstReads.cons {payload : Option (List UInt8)} {launch : Launch} {later : List Launch}
    (first : launch.input = payload.elim .nothing .payload) (others : FirstReads none later) :
    FirstReads payload (launch :: later) := by
  rintro _ _ ⟨⟩
  exact ⟨first, others.forall_none⟩

/-- What a line that is executed reads. -/
theorem lineLaunch_input (context : Context) (payload : Option (List UInt8)) (program : Text)
    (args : List Text) :
    (lineLaunch context payload program args).input = payload.elim .nothing .payload := by
  cases payload <;> rfl

/-- One launch is made for a line that is executed. It leads to a process, or it is refused and
the call fails. -/
theorem exists_events_of_runLineProcess (host : Host) (limit : Option Duration) (origin : Origin)
    (launch : Launch) (process : ProcessId) (trace : Trace) :
    ∃ (outcome : Except Error Capture) (events : Trace),
      runLineProcess host limit origin launch process trace = (outcome, trace ++ events) ∧
        events.launches = [(origin, launch)] ∧
        (∀ later, Trace.started (events ++ later) =
          (if host.refusal trace launch = none then [launch] else []) ++ later.started) ∧
        (host.refusal trace launch ≠ none → ∃ fault, outcome = .error fault) := by
  generalize ran : runLineProcess host limit origin launch process trace = result
  have outcome : LineOutcome host limit origin launch process trace result := by
    rw [← ran]
    exact outcome_runLineProcess host limit origin launch process trace
  cases outcome with
  | refused refusal =>
      rw [refusal]
      exact ⟨_, _, rfl, rfl, fun _ => rfl, fun _ => ⟨_, rfl⟩⟩
  | @waited outcome cleaned accepted own =>
      refine ⟨_, .launched origin launch :: .waited process limit outcome ::
        cleanUp (cleaned ++ [process]), by rw [List.append_assoc]; rfl, by simp [Event.launch?],
        fun later => ?_, fun refused => absurd accepted refused⟩
      rw [accepted]
      exact congrArg (launch :: ·) (Trace.started_cleanUp_append _ later)

/-- The lines still to come hand the payload to the first that is executed, and to no other. -/
theorem exists_events_of_runLinesFrom (host : Host) (limit : Option Duration) (lines : List Text)
    (context : Context) (payload : Option (List UInt8)) (executed : Nat) (tally : Tally)
    (trace : Trace) :
    ∃ events : Trace,
      (runLinesFrom host limit lines context payload executed tally trace).2 = trace ++ events ∧
        FirstReads payload events.started := by
  induction lines generalizing context payload executed tally trace with
  | nil => exact ⟨[], (List.append_nil trace).symm, .nil payload⟩
  | cons line lines ih =>
      rw [runLinesFrom]
      cases LineTask.ofLine line.trim with
      | error fault => exact ⟨[], (List.append_nil trace).symm, .nil payload⟩
      | ok task =>
          cases task with
          | changeDir target =>
              exact ih (context.changeDir (some target)) payload executed tally trace
          | nothing => exact ih context payload executed tally trace
          | start program args =>
              obtain ⟨outcome, events, ran, -, started, failed⟩ :=
                exists_events_of_runLineProcess host limit (.line line.trim)
                  (lineLaunch context payload program args) executed trace
              have first := lineLaunch_input context payload program args
              have alone := started []
              rw [List.append_nil, Trace.started, List.append_nil] at alone
              have readAlone : FirstReads payload events.started := by
                rw [alone]
                split
                · exact .cons first (.nil none)
                · exact .nil payload
              simp only [ran]
              cases outcome with
              | error fault => exact ⟨events, rfl, readAlone⟩
              | ok captured =>
                  have accepted : host.refusal trace (lineLaunch context payload program args) =
                      none := by
                    by_contra refused
                    obtain ⟨fault, same⟩ := failed refused
                    cases same
                  by_cases late : captured.timedOut = true
                  · simp only [if_pos late]
                    exact ⟨events, rfl, readAlone⟩
                  · simp only [if_neg late]
                    obtain ⟨later, grown, others⟩ :=
                      ih context none (executed + 1) (tally.add captured) (trace ++ events)
                    refine ⟨events ++ later, by rw [grown, List.append_assoc], ?_⟩
                    rw [started later, if_pos accepted]
                    exact .cons first others

/-! ## Both forms -/

/-- The first process of a line reads the payload exactly when the line does not begin with a
builtin, and no other process does. Of a list of lines the first process reads it and no other,
whatever lines come before the one that is executed. -/
theorem payload_goes_to_front (host : Host) (vars : ProcessVariables) (options : Options)
    (payload : List UInt8) :
    (∀ line first later,
      (runLine host vars (options.withInput payload) line).2.started = first :: later →
        ∃ stage rest, Pipeline.split line = .ok (stage :: rest) ∧
          first.input = (if isBuiltin stage then .nothing else .payload payload) ∧
          ∀ launch ∈ later, ∀ bytes, launch.input ≠ .payload bytes) ∧
    ∀ lines first later,
      (runLines host vars (options.withInput payload) lines).2.started = first :: later →
        first.input = .payload payload ∧ ∀ launch ∈ later, launch.input = .nothing := by
  constructor
  · intro line first later started
    cases splits : Pipeline.split line with
    | error fault =>
        rw [runLine, splits] at started
        cases started
    | ok stages =>
        obtain ⟨taken, inLine, isStarted⟩ :=
          exists_taken_of_runLine (options.withInput payload) host vars splits
        obtain ⟨stage, rest, rfl, -⟩ := Pipeline.exists_first_of_split splits
        rw [isStarted, List.map_eq_cons_iff] at started
        obtain ⟨spot, others, starts, rfl, rfl⟩ := started
        obtain ⟨reads, noOther⟩ := inputs_of_taken (options.withInput payload) inLine starts
        exact ⟨stage, rest, rfl, reads, List.forall_mem_map.mpr noOther⟩
  · intro lines first later started
    obtain ⟨events, grown, reads⟩ := exists_events_of_runLinesFrom host options.timeout lines
      (.ofOptions vars (options.withInput payload)) (some payload) 0 .initial []
    refine reads first later ?_
    rw [← started]
    exact congrArg Trace.started grown.symm

/-- The payload reaches the process at the front of a pipe, and no line before the one that is
executed takes it away. -/
theorem payload_reaches_pipe_and_list :
    let options := Options.empty.withInput (Utf8.encode "lost".toList)
    (∃ first last, (runLine obliging [] options "cat | sort".toList).2.started = [first, last] ∧
      first.input = .payload (Utf8.encode "lost".toList) ∧
      ∀ bytes, last.input ≠ .payload bytes) ∧
    ∃ only, (runLines obliging [] options ["cd /".toList, "cat".toList]).2.started = [only] ∧
      only.input = .payload (Utf8.encode "lost".toList) := by
  intro options
  have inLine : (runLine obliging [] options "cat | sort".toList).2.started =
      [⟨"cat".toList, [], none, [], .payload (Utf8.encode "lost".toList), .piped, .discarded⟩,
        ⟨"sort".toList, [], none, [], .outputOf 0, .piped, .piped⟩] := by
    decide +kernel
  have inList : (runLines obliging [] options ["cd /".toList, "cat".toList]).2.started =
      [⟨"cat".toList, [], some "/".toList, [], .payload (Utf8.encode "lost".toList), .piped,
        .piped⟩] := by
    decide +kernel
  obtain ⟨ofLine, ofList⟩ :=
    payload_goes_to_front obliging [] .empty (Utf8.encode "lost".toList)
  obtain ⟨stage, rest, splits, reads, noOther⟩ := ofLine _ _ _ inLine
  have known : Pipeline.split "cat | sort".toList =
      .ok [⟨.ofTexts ["cat".toList], false⟩, ⟨.ofTexts ["sort".toList], true⟩] := by
    decide +kernel
  obtain ⟨rfl, rfl⟩ := List.cons.inj (Except.ok.inj (splits.symm.trans known))
  exact ⟨⟨_, _, inLine, reads, noOther _ (List.mem_singleton.mpr rfl)⟩, _, inList,
    (ofList _ _ _ inList).1⟩

/-- A builtin that nothing is piped from discards the payload, though a process runs behind it.
The same two lines as a list deliver it. -/
theorem cd_discards_payload :
    let payload := Utf8.encode "lost".toList
    let options := Options.empty.withInput payload
    let cd : Stage := ⟨.ofTexts ["cd".toList, "/".toList], false⟩
    let cat : Stage := ⟨.ofTexts ["cat".toList], false⟩
    Pipeline.split "cd /; cat".toList = .ok [cd, cat] ∧
      isBuiltin cd = true ∧ isBuiltin cat = false ∧
      (runLine obliging [] options "cd /; cat".toList).2.started.map Launch.input = [.nothing] ∧
      (runLines obliging [] options ["cd /".toList, "cat".toList]).2.started.map Launch.input =
        [.payload payload] := by
  refine ⟨?_, rfl, rfl, ?_, ?_⟩ <;> decide +kernel

end Errand.Local
