/-
# Lines one after another

A list of lines is run by a loop that starts at most one process a turn. What one turn can do is
told by `LineOutcome`. What holds before the first line and is kept by every turn that goes on
holds at the end, so a statement about all lists is proved one turn at a time.
-/
import Errand.Local.Lines
import Errand.Proofs.Local.Wiring

namespace Errand.Local

open Run Shell

/-- What becomes of the process of one line: its launch is refused, or it is started, waited for and
cleaned up, if need be twice. -/
inductive LineOutcome (host : Host) (limit : Option Duration) (origin : Origin) (launch : Launch)
    (process : ProcessId) (trace : Trace) : Except Error Capture × Trace → Prop
  | refused {fault : OsFault} (refusal : host.refusal trace launch = some fault) :
      LineOutcome host limit origin launch process trace
        (.error (.spawn launch.program fault),
          trace ++ [.launched origin launch, .refused fault])
  | waited {outcome : Except OsFault Capture} {cleaned : List ProcessId}
      (accepted : host.refusal trace launch = none) (own : ∀ other ∈ cleaned, other = process) :
      LineOutcome host limit origin launch process trace
        (outcome.mapError .io, trace ++ [.launched origin launch, .waited process limit outcome] ++
          cleanUp (cleaned ++ [process]))

theorem outcome_runLineProcess (host : Host) (limit : Option Duration) (origin : Origin)
    (launch : Launch) (process : ProcessId) (trace : Trace) :
    LineOutcome host limit origin launch process trace
      (runLineProcess host limit origin launch process trace) := by
  rw [runLineProcess, start]
  cases refusal : host.refusal trace launch with
  | some fault =>
      simp only [List.append_assoc, List.singleton_append]
      exact .refused refusal
  | none =>
      obtain ⟨outcome, cleaned, captured, own⟩ :=
        exists_of_capture host process limit (trace ++ [.launched origin launch])
      have waited : LineOutcome host limit origin launch process trace (outcome.mapError .io, _) :=
        .waited refusal own
      simp only [captured]
      simpa [cleanUp, List.flatMap_append] using waited

/-- What every turn keeps, and what every way to end makes of it, holds of the whole run. -/
theorem runLinesFrom_induct {host : Host} {limit : Option Duration}
    {keeps : Nat → Tally → Trace → Prop} {gives : Except Error Tally → Trace → Prop}
    (done : ∀ {executed tally trace}, keeps executed tally trace → gives (.ok tally) trace)
    (unread : ∀ {executed tally trace} fault, keeps executed tally trace →
      gives (.error (.parse fault)) trace)
    (failed : ∀ {executed tally trace origin launch error after}, keeps executed tally trace →
      LineOutcome host limit origin launch executed trace (.error error, after) →
      gives (.error error) after)
    (late : ∀ {executed tally trace origin launch captured after}, keeps executed tally trace →
      LineOutcome host limit origin launch executed trace (.ok captured, after) →
      captured.timedOut = true → gives (.ok (tally.add captured)) after)
    (goesOn : ∀ {executed tally trace origin launch captured after}, keeps executed tally trace →
      LineOutcome host limit origin launch executed trace (.ok captured, after) →
      captured.timedOut = false → keeps (executed + 1) (tally.add captured) after)
    (lines : List Text) (context : Context) (payload : Option (List UInt8)) {executed : Nat}
    {tally : Tally} {trace : Trace} (kept : keeps executed tally trace) :
    gives (runLinesFrom host limit lines context payload executed tally trace).1
      (runLinesFrom host limit lines context payload executed tally trace).2 := by
  induction lines generalizing context payload executed tally trace with
  | nil => exact done kept
  | cons line lines ih =>
      rw [runLinesFrom]
      cases LineTask.ofLine line.trim with
      | error fault => exact unread fault kept
      | ok task =>
          cases task with
          | changeDir target => exact ih (context.changeDir (some target)) payload kept
          | nothing => exact ih context payload kept
          | start program args =>
              have outcome := outcome_runLineProcess host limit (.line line.trim)
                (lineLaunch context payload program args) executed trace
              simp only
              generalize runLineProcess host limit (.line line.trim)
                (lineLaunch context payload program args) executed trace = result at outcome
              obtain ⟨ended, after⟩ := result
              cases ended with
              | error error => exact failed kept outcome
              | ok captured =>
                  cases timedOut : captured.timedOut with
                  | true =>
                      simp only [timedOut, if_true]
                      exact late kept outcome timedOut
                  | false =>
                      simp only [timedOut, Bool.false_eq_true, if_false]
                      exact ih context none (goesOn kept outcome timedOut)

end Errand.Local
