/-
# Verdicts stay consistent

A result is put together in four places: for a line, for a list of lines, for a remote command and
for a remote command list. Its type allows a result that timed out and has an exit code, or output
with blanks around it. None of the four ever gives one, whatever the processes or the other side
do. For a list of lines that takes an invariant, since its exit code is carried from line to line:
a line whose time runs out wipes out the code of the lines before it, and no line follows it.
-/
import Errand.Backend.Executor
import Errand.Backend.Shared
import Errand.Proofs.Local.LineByLine
import Errand.Proofs.Shell.Scanned
import Errand.Proofs.Text.Trimmed

namespace Errand

theorem Output.isTrimmed_settle (bytes : List UInt8) : (Output.settle bytes).IsTrimmed :=
  Text.isTrimmed_trim _

/-! ## Consistent results -/

namespace Run.Result

/-- What every result of a call keeps to. -/
structure Consistent (result : Result) : Prop where
  late : result.timedOut = true →
    result.exitCode = none ∧ result.success = false ∧ result.failed = true
  oneVerdict : ¬ (result.success = true ∧ result.failed = true)
  stdout : result.stdout.IsTrimmed
  stderr : result.stderr.IsTrimmed

/-- It is enough that time and code do not go together. -/
theorem consistent_of_noCode {result : Result}
    (noCode : result.timedOut = true → result.exitCode = none)
    (stdout : result.stdout.IsTrimmed) (stderr : result.stderr.IsTrimmed) :
    result.Consistent where
  late := by
    intro timedOut
    have none := noCode timedOut
    refine ⟨none, ?_, ?_⟩
    · rw [success, none]
      rfl
    · rw [failed, timedOut]
      rfl
  oneVerdict := by
    rintro ⟨succeeds, fails⟩
    have zero : result.exitCode = some 0 := by simpa [success] using succeeds
    have inTime : result.timedOut = false := by
      by_contra late
      rw [Bool.not_eq_false] at late
      cases zero.symm.trans (noCode late)
    rw [failed, inTime, zero] at fails
    cases fails
  stdout := stdout
  stderr := stderr

variable {stdout stderr : Text}

/-- What was collected before the time ran out has no code. -/
theorem consistent_interrupted (out : stdout.IsTrimmed) (err : stderr.IsTrimmed) :
    (interrupted stdout stderr).Consistent :=
  consistent_of_noCode (fun _ => rfl) out err

/-- What is finished may have any. -/
theorem consistent_finished (out : stdout.IsTrimmed) (err : stderr.IsTrimmed)
    (code : Option Int) : ((finished stdout stderr).withExitCode? code).Consistent := by
  cases code with
  | none => exact consistent_of_noCode (fun late => by cases late) out err
  | some code => exact consistent_of_noCode (fun late => by cases late) out err

end Run.Result

/-! ## On this machine -/

namespace Local

open Run Output Shell

theorem consistent_resultOf (captured : Capture) : (resultOf captured).Consistent := by
  rw [resultOf]
  split
  · exact Result.consistent_interrupted (isTrimmed_settle _) (isTrimmed_settle _)
  · exact Result.consistent_finished (isTrimmed_settle _) (isTrimmed_settle _) _

theorem consistent_builtinResult : builtinResult.Consistent :=
  Result.consistent_finished Text.isTrimmed_nil Text.isTrimmed_nil (some 0)

/-- A tally whose last line was late has no code, also if a line before it has left one. -/
def Tally.Forgets (tally : Tally) : Prop := tally.timedOut = true → tally.exitCode = none

theorem Tally.forgets_add (tally : Tally) (captured : Capture) : (tally.add captured).Forgets := by
  intro late
  show captured.status.map Status.code = none
  rw [Option.isNone_iff_eq_none.mp late]
  rfl

theorem Tally.Forgets.consistent {tally : Tally} (forgets : tally.Forgets) :
    tally.result.Consistent := by
  rw [Tally.result]
  by_cases late : tally.timedOut = true
  · rw [if_pos late, forgets late]
    exact Result.consistent_interrupted (isTrimmed_settle _) (isTrimmed_settle _)
  · rw [if_neg late]
    exact Result.consistent_finished (isTrimmed_settle _) (isTrimmed_settle _) _

theorem Trace.mem_waits {trace : Trace} {process : ProcessId} {limit : Option Duration}
    {outcome : Except OsFault Capture} :
    (process, limit, outcome) ∈ trace.waits ↔ .waited process limit outcome ∈ trace := by
  rw [Trace.waits, Trace.collect, List.mem_filterMap]
  constructor
  · rintro ⟨event, member, read⟩
    cases event with
    | waited other bound found =>
        obtain ⟨rfl, rfl, rfl⟩ := by simpa [Event.wait?] using read
        exact member
    | changedDir | assigned | launched | refused | killed | reaped | nothingToWait => cases read
  · intro member
    exact ⟨_, member, rfl⟩

/-- No wait of a trace has run out of time. -/
def Trace.InTime (trace : Trace) : Prop :=
  ∀ process limit captured, (process, limit, .ok captured) ∈ trace.waits →
    captured.timedOut = false

theorem Trace.InTime.not_mem {trace : Trace} (inTime : trace.InTime) {process : ProcessId}
    {limit : Option Duration} {captured : Capture} (late : captured.timedOut = true) :
    .waited process limit (.ok captured) ∉ trace := by
  intro member
  rw [inTime process limit captured (Trace.mem_waits.mpr member)] at late
  cases late

/-- Behind a line whose time runs out no line is started, and the late line is the last one that
the tally tells of. -/
def LateEnds (outcome : Except Error Tally) (trace : Trace) : Prop :=
  ∀ (before : Trace) process limit captured (after : Trace),
    trace = before ++ .waited process limit (.ok captured) :: after →
    captured.timedOut = true →
      after.launches = [] ∧ ∃ tally : Tally, outcome = .ok (tally.add captured)

theorem Trace.InTime.lateEnds {trace : Trace} (inTime : trace.InTime)
    (outcome : Except Error Tally) : LateEnds outcome trace := by
  rintro before process limit captured after rfl late
  exact absurd (List.mem_append_right before List.mem_cons_self) (inTime.not_mem late)

section Turn

variable {host : Host} {limit : Option Duration} {origin : Origin} {launch : Launch}
  {process : ProcessId} {trace : Trace} {result : Except Error Capture × Trace}

/-- A line that fails has not been late. -/
theorem LineOutcome.inTime {error : Error}
    (outcome : LineOutcome host limit origin launch process trace result)
    (fails : result.1 = .error error) (inTime : trace.InTime) : Trace.InTime result.2 := by
  intro other bound captured member
  cases outcome with
  | refused refusal =>
      apply inTime other bound captured
      simpa [Event.wait?] using member
  | @waited outcome cleaned accepted own =>
      cases outcome with
      | ok ended => cases fails
      | error fault =>
          apply inTime other bound captured
          simpa [Event.wait?] using member

/-- A line that ends has been waited for as the last thing but the cleaning up. -/
theorem LineOutcome.exists_of_ok {captured : Capture}
    (outcome : LineOutcome host limit origin launch process trace result)
    (ends : result.1 = .ok captured) :
    ∃ cleaned, result.2 = (trace ++ [.launched origin launch]) ++
      .waited process limit (.ok captured) :: cleanUp cleaned := by
  cases outcome with
  | refused refusal => cases ends
  | @waited outcome cleaned accepted own =>
      cases outcome with
      | error fault => cases ends
      | ok ended =>
          obtain rfl := Except.ok.inj ends
          refine ⟨cleaned ++ [process], ?_⟩
          simp only [List.append_assoc, List.cons_append, List.nil_append]

end Turn

/-- A late line is the last one, and what the lines report has no code then. -/
theorem lateEnds_runLinesFrom (host : Host) (limit : Option Duration) (lines : List Text)
    (context : Context) (payload : Option (List UInt8)) :
    let result := runLinesFrom host limit lines context payload 0 .initial []
    LateEnds result.1 result.2 ∧ ∀ tally, result.1 = .ok tally → tally.Forgets := by
  let keeps (_ : Nat) (tally : Tally) (trace : Trace) : Prop := tally.Forgets ∧ trace.InTime
  let gives (outcome : Except Error Tally) (trace : Trace) : Prop :=
    LateEnds outcome trace ∧ ∀ tally, outcome = .ok tally → tally.Forgets
  apply @runLinesFrom_induct host limit keeps gives
  case done =>
    rintro executed tally trace ⟨forgets, inTime⟩
    refine ⟨inTime.lateEnds _, ?_⟩
    rintro _ ⟨⟩
    exact forgets
  case unread =>
    rintro executed tally trace fault ⟨-, inTime⟩
    exact ⟨inTime.lateEnds _, by rintro _ ⟨⟩⟩
  case failed =>
    rintro executed tally trace origin launch error after ⟨-, inTime⟩ outcome
    exact ⟨(outcome.inTime rfl inTime).lateEnds _, by rintro _ ⟨⟩⟩
  case late =>
    rintro executed tally trace origin launch captured after ⟨-, inTime⟩ outcome -
    obtain ⟨cleaned, ends⟩ := outcome.exists_of_ok rfl
    constructor
    · intro before process bound other behind splits late
      have unseen : .waited process bound (.ok other) ∉ trace ++ [.launched origin launch] := by
        simpa using inTime.not_mem late
      obtain ⟨more, -, here⟩ := Trace.exists_of_append_eq (ends.symm.trans splits) unseen
      have noLaunch : more.launches = [] ∧ behind.launches = [] := by
        simpa [Event.launch?] using congrArg Trace.launches here
      have member : (process, bound, .ok other) ∈
          Trace.waits (.waited executed limit (.ok captured) :: cleanUp cleaned) := by
        rw [here]
        simp [Event.wait?]
      obtain ⟨-, -, rfl⟩ : process = executed ∧ bound = limit ∧ other = captured := by
        simpa [Event.wait?] using member
      exact ⟨noLaunch.2, tally, rfl⟩
    · rintro _ ⟨⟩
      exact tally.forgets_add captured
  case goesOn =>
    rintro executed tally trace origin launch captured after ⟨-, inTime⟩ outcome onTime
    obtain ⟨cleaned, ends⟩ := outcome.exists_of_ok rfl
    refine ⟨tally.forgets_add captured, ?_⟩
    intro process bound other member
    have ends : after = _ := ends
    have either : (process, bound, .ok other) ∈ trace.waits ∨
        process = executed ∧ bound = limit ∧ other = captured := by
      simpa [ends, Event.wait?] using member
    rcases either with earlier | ⟨-, -, rfl⟩
    · exact inTime process bound other earlier
    · exact onTime
  case kept =>
    refine ⟨(fun late => by cases late), ?_⟩
    intro process bound captured member
    cases member

theorem consistent_of_runLine {host : Host} {vars : ProcessVariables} {options : Options}
    {line : Text} {result : Result} (gives : (runLine host vars options line).1 = .ok result) :
    result.Consistent := by
  rw [runLine] at gives
  cases splits : Pipeline.split line with
  | error fault =>
      rw [splits] at gives
      cases gives
  | ok stages =>
      simp only [splits, runPipeline] at gives
      generalize startStages host options 0 stages _ = started at gives
      rcases started with ⟨_ | _ | last, progress⟩
      · cases gives
      · obtain rfl := Except.ok.inj gives
        exact consistent_builtinResult
      · obtain ⟨captured, -, rfl⟩ := exists_of_map_eq_ok gives
        exact consistent_resultOf captured

theorem consistent_of_runLines {host : Host} {vars : ProcessVariables} {options : Options}
    {lines : List Text} {result : Result}
    (gives : (runLines host vars options lines).1 = .ok result) : result.Consistent := by
  obtain ⟨tally, ended, rfl⟩ := exists_of_map_eq_ok gives
  obtain ⟨-, forgets⟩ := lateEnds_runLinesFrom host options.timeout lines
    (.ofOptions vars options) options.input
  exact (forgets tally ended).consistent

theorem consistent_of_run {host : Host} {vars : ProcessVariables} {options : Options}
    {call : Call} {result : Result} (gives : (Local.run host vars options call).1 = .ok result) :
    result.Consistent := by
  cases call with
  | one line => exact consistent_of_runLine gives
  | many lines => exact consistent_of_runLines gives

end Local

/-! ## On another machine -/

namespace Remote

open Run Output Shell

theorem consistent_resultOf (reply : Reply) (call : Call) : (resultOf reply call).Consistent := by
  cases call with
  | one command => exact Result.consistent_finished (isTrimmed_settle _) (isTrimmed_settle _) _
  | many commands =>
      rw [resultOf]
      split
      · exact Result.consistent_interrupted (isTrimmed_settle _) (isTrimmed_settle _)
      · exact Result.consistent_finished (isTrimmed_settle _) (isTrimmed_settle _) _

theorem Session.consistent_of_run {session : Session} {call : Call} {options : Options}
    {result : Result} (gives : (session.run call options).1 = .ok result) :
    result.Consistent := by
  obtain ⟨reply, -, rfl⟩ := exists_of_map_eq_ok gives
  exact consistent_resultOf reply call

end Remote

/-! ## On every backend -/

namespace Backend

open Run Remote

/-- The results that calls return, one way to make a call for each constructor. -/
inductive Returned (result : Result) : Prop
  | executor {host : Local.Host} {vars : ProcessVariables} {options : Options} {call : Call}
      (gives : (Local.run host vars options call).1 = .ok result)
  /-- Directly, through the pool or beside the backend. -/
  | backend {host : Local.Host} {vars : ProcessVariables} {backend : LocalBackend}
      {step : LocalStep} (gives : (backend.perform host vars step).1 = some (.ok result))
  | session {session : Session} {call : Call} {options : Options}
      (gives : (session.run call options).1 = .ok result)
  | held {thread : ThreadId} {shared : SharedSession} {call : Call} {options : Options}
      (gives : (shared.run thread call options).1 = .ok result)
  | pooled {worker : ThreadId} {shared : SharedSession} {call : Call} {options : Options}
      (gives : (shared.runPooled worker call options).1 = .ok result)
  /-- On whichever side was chosen. -/
  | either {host : Local.Host} {vars : ProcessVariables} {executor : Executor} {call : Call}
      {options : Options} (gives : (executor.run host vars call options).1 = .ok result)

namespace Returned

variable {result : Result}

/-- A session gives the same results however it is held. -/
theorem consistent_of_session {session : Session} {call : Call} {options : Options}
    (gives : (session.run call options).1.mapError Error.connection = .ok result) :
    result.Consistent := by
  cases outcome : (session.run call options).1 with
  | error fault =>
      rw [outcome] at gives
      cases gives
  | ok other =>
      rw [outcome] at gives
      obtain rfl := Except.ok.inj gives
      exact Session.consistent_of_run outcome

theorem consistent (returned : Returned result) : result.Consistent := by
  cases returned with
  | executor gives => exact Local.consistent_of_run gives
  | @backend host vars backend step gives =>
      cases step with
      | direct call options => exact Local.consistent_of_run (Option.some.inj gives)
      | pooled call options =>
          have gives : (backend.runPooled host vars call options).1 = .ok result :=
            Option.some.inj gives
          rw [LocalBackend.runPooled] at gives
          cases spoilt : backend.isPoisoned with
          | true =>
              rw [if_pos spoilt] at gives
              cases gives
          | false =>
              rw [spoilt] at gives
              exact Local.consistent_of_run gives
      | separate call options => exact Local.consistent_of_run (Option.some.inj gives)
      | close => cases gives
      | poison => cases gives
  | session gives => exact Session.consistent_of_run gives
  | held gives => exact consistent_of_session gives
  | @pooled worker shared call options gives =>
      rw [SharedSession.runPooled] at gives
      cases spoilt : shared.isPoisoned with
      | true =>
          rw [if_pos spoilt] at gives
          cases gives
      | false =>
          rw [spoilt] at gives
          exact consistent_of_session gives
  | @either host vars executor call options gives =>
      cases executor with
      | here backend => exact Local.consistent_of_run gives
      | elsewhere session => exact consistent_of_session gives

end Returned

/-- A returned result that timed out has no exit code and counts as failed, none counts as both
succeeded and failed, and both outputs are trimmed. A list of lines starts nothing behind a line
whose time ran out, and reports no code then. -/
theorem returned_results_are_consistent :
    (∀ result, Returned result → result.Consistent) ∧
      ∀ (host : Local.Host) vars options lines (before : Local.Trace) process limit captured
        (after : Local.Trace),
        (Local.runLines host vars options lines).2 =
            before ++ .waited process limit (.ok captured) :: after →
          captured.timedOut = true →
          after.launches = [] ∧ ∃ result, (Local.runLines host vars options lines).1 = .ok result ∧
            result.timedOut = true ∧ result.exitCode = none := by
  refine ⟨fun result returned => returned.consistent, ?_⟩
  intro host vars options lines before process limit captured after splits late
  obtain ⟨lateEnds, forgets⟩ := Local.lateEnds_runLinesFrom host options.timeout lines
    (.ofOptions vars options) options.input
  obtain ⟨noLaunch, tally, ended⟩ := lateEnds before process limit captured after splits late
  refine ⟨noLaunch, (tally.add captured).result, ?_, ?_⟩
  · rw [Local.runLines]
    exact congrArg (Except.map Local.Tally.result) ended
  · have noCode := forgets _ ended late
    have timedOut : (tally.add captured).timedOut = true := late
    rw [Local.Tally.result, noCode, if_pos timedOut]
    exact ⟨rfl, rfl⟩

/-- A host on which the first process of a call exits with 3 and no other is done in time. -/
def firstOnly : Local.Host where
  refusal := fun _ _ => none
  wait := fun _ process _ =>
    .ok ⟨Utf8.encode " out\n".toList, [], if process = 0 then some (.exited 3) else none⟩

/-- Three lines, of which the second is late: the code of the first is gone, the third is not
started, and the outputs of both are reported as one trimmed text. -/
theorem late_line_hides_earlier_code :
    let lines := ["true".toList, "sleep 5".toList, "true".toList]
    let options := Options.empty.withTimeout (.ofMillis 200)
    let call := Local.runLines firstOnly [] options lines
    let result : Result := ⟨"out\n out".toList, [], none, true⟩
    call.1 = .ok result ∧ result.Consistent ∧ call.2.started.length = 2 ∧
      ∃ (before : Local.Trace) (captured : Local.Capture) (after : Local.Trace),
        call.2 = before ++ .waited 1 options.timeout (.ok captured) :: after ∧
          captured.timedOut = true ∧ after.launches = [] := by
  intro lines options call result
  obtain ⟨consistent, lateEnds⟩ := returned_results_are_consistent
  have gives : call.1 = .ok result := by decide +kernel
  have returned : (Local.run firstOnly [] options (.many lines)).1 = .ok result := gives
  have waited :
      (1, options.timeout, .ok ⟨Utf8.encode " out\n".toList, [], none⟩) ∈ call.2.waits := by
    decide +kernel
  obtain ⟨before, after, splits⟩ := List.append_of_mem (Local.Trace.mem_waits.mp waited)
  obtain ⟨noLaunch, -⟩ := lateEnds firstOnly [] options lines before _ _ _ after splits rfl
  exact ⟨gives, consistent result (.executor returned), by decide +kernel, before, _, after, splits,
    rfl, noLaunch⟩

end Backend

end Errand
