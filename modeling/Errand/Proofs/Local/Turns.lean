/-
# Lists of lines as a fold

What a list of lines asks for can be read off before anything is run: which lines are executed,
with which words, in which directory, and which line, if any, cannot be read. Running the list adds
nothing to that but what becomes of the processes. It carries the lines out in order, and it stops
early only at a process whose time runs out or that fails.

A call keeps no text of the lines it has run, only their bytes. So what it reports is the decoding
of all bytes in a row, and a character may begin in the output of one line and end in that of
another.
-/
import Errand.Proofs.Local.LineByLine
import Errand.Proofs.Output.Chunks

namespace Errand.Local

open Run Shell

/-! ## What the lines ask for -/

/-- The directory that a line changes to, if it is a change of the directory. -/
def cdTarget? (line : Text) : Option Text := (line.trim.after? ['c', 'd', ' ']).map Text.trim

/-- The context that some lines leave. Only changes of the directory matter for it. -/
def contextAfter (start : Context) (lines : List Text) : Context :=
  (lines.filterMap cdTarget?).foldl (fun context target => context.changeDir (some target)) start

/-- A line that is executed: the lines before it, the line itself and its words. -/
structure Turn where
  before : List Text
  line : Text
  program : Text
  args : List Text

/-- The lines that are executed of those behind `before`, and why the first line that is no change
of the directory and cannot be split into words cannot be. -/
def turnsFrom (before : List Text) : List Text → List Turn × Option ParseFault
  | [] => ([], none)
  | line :: later =>
    let further := turnsFrom (before ++ [line]) later
    match cdTarget? line, Words.split line.trim with
    | some _, _ => further
    | none, .error fault => ([], some fault)
    | none, .ok [] => further
    | none, .ok (program :: args) => (⟨before, line, program, args⟩ :: further.1, further.2)

/-- With what a line is started. All lines have the same variables. -/
def Turn.launch (start : Context) (payload : Option (List UInt8)) (turn : Turn) : Origin × Launch :=
  (.line turn.line.trim,
    { program := turn.program
      args := turn.args
      cwd := (contextAfter start turn.before).cwd
      env := start.env
      input := payload.elim .nothing .payload
      stdout := .piped
      stderr := .piped })

/-- With what the lines are started. Only the first of them reads the payload. -/
def launchesOf (start : Context) : Option (List UInt8) → List Turn → List (Origin × Launch)
  | _, [] => []
  | payload, turn :: later => turn.launch start payload :: launchesOf start none later

theorem env_contextAfter (start : Context) (lines : List Text) :
    (contextAfter start lines).env = start.env := by
  rw [contextAfter]
  induction lines.filterMap cdTarget? generalizing start with
  | nil => rfl
  | cons target targets ih => rw [List.foldl_cons, ih, Context.env_changeDir]

/-- What a line does to the context of the lines behind it: one that begins with `cd ` moves to the
rest of the line, taken as it is but for the blanks around it, and every other one changes
nothing. -/
inductive LineShifts (line : Text) (context : Context) : Context → Prop
  | cd {rest : Text} {cwd : Option Text} (begins : line.trim = "cd ".toList ++ rest)
    (moves : Moves (context.get? "HOME".toList) context.cwd rest.trim cwd) :
    LineShifts line context ⟨cwd, context.env⟩
  | other (otherwise : ¬ "cd ".toList <+: line.trim) : LineShifts line context context

/-- One line more shifts the context of the lines behind. -/
theorem lineShifts_contextAfter (start : Context) (before : List Text) (line : Text) :
    LineShifts line (contextAfter start before) (contextAfter start (before ++ [line])) := by
  rw [contextAfter, contextAfter, List.filterMap_append, List.foldl_append, ← contextAfter]
  generalize contextAfter start before = context
  cases begins : line.trim.after? "cd ".toList with
  | none =>
      have noCd : cdTarget? line = none := congrArg (Option.map Text.trim) begins
      rw [List.filterMap_cons_none noCd]
      refine .other ?_
      rintro ⟨rest, isLine⟩
      rw [Text.after?_eq_some_iff.mpr isLine.symm] at begins
      cases begins
  | some rest =>
      have isCd : cdTarget? line = some rest.trim := congrArg (Option.map Text.trim) begins
      rw [List.filterMap_cons_some isCd]
      have shifts := LineShifts.cd (Text.after?_eq_some_iff.mp begins)
        (moves_changeDir context (some rest.trim))
      rwa [← Context.env_changeDir context (some rest.trim)] at shifts

/-! ## What becomes of the processes -/

/-- A host answers an event of a trace if it gave the outcome of a wait, and if it refused a launch
exactly where that is reported. -/
def Host.Answers (host : Host) (before : Trace) (event : Event) (later : Trace) : Prop :=
  match event with
  | .launched _ launch => host.refusal before launch = later.head?.bind Event.fault?
  | .waited process limit outcome => host.wait before process limit = outcome
  | _ => True

/-- A host answers all events of a trace that goes on behind `before`. -/
def Host.AnswersAll (host : Host) (before : Trace) : Trace → Prop
  | [] => True
  | event :: later =>
    host.Answers before event later ∧ host.AnswersAll (before ++ [event]) later

/-- What happens when processes are run to their ends one after the other. -/
def ranEvents (limit : Option Duration) :
    ProcessId → List ((Origin × Launch) × Capture) → Trace
  | _, [] => []
  | process, ((origin, launch), captured) :: later =>
    [.launched origin launch, .waited process limit (.ok captured)] ++ cleanUp [process] ++
      ranEvents limit (process + 1) later

/-- How the launches of a list end, the first of them with the process that has this number: with
which captures of processes that were run, and with which error, if any. -/
inductive ListOutcome (limit : Option Duration) (unread : Option ParseFault)
    (process : ProcessId) (launches : List (Origin × Launch)) :
    List Capture → Except Error Unit → Trace → Prop
  /-- All lines are run, and what cannot be read behind them is reported. -/
  | done {ran : List ((Origin × Launch) × Capture)} (all : launches = ran.map Prod.fst)
      (inTime : ∀ run ∈ ran, run.2.timedOut = false) :
      ListOutcome limit unread process launches (ran.map Prod.snd)
        (unread.elim (.ok ()) fun fault => .error (.parse fault)) (ranEvents limit process ran)
  /-- The time of a line runs out. -/
  | late {ran : List ((Origin × Launch) × Capture)} {origin : Origin} {launch : Launch}
      {later : List (Origin × Launch)} {captured : Capture}
      (next : launches = ran.map Prod.fst ++ (origin, launch) :: later)
      (inTime : ∀ run ∈ ran, run.2.timedOut = false) (timedOut : captured.timedOut = true) :
      ListOutcome limit unread process launches (ran.map Prod.snd ++ [captured]) (.ok ())
        (ranEvents limit process ran ++
          ([.launched origin launch, .waited (process + ran.length) limit (.ok captured)] ++
            cleanUp [process + ran.length, process + ran.length]))
  /-- A line cannot be started. -/
  | refused {ran : List ((Origin × Launch) × Capture)} {origin : Origin} {launch : Launch}
      {later : List (Origin × Launch)} {fault : OsFault}
      (next : launches = ran.map Prod.fst ++ (origin, launch) :: later)
      (inTime : ∀ run ∈ ran, run.2.timedOut = false) :
      ListOutcome limit unread process launches (ran.map Prod.snd)
        (.error (.spawn launch.program fault))
        (ranEvents limit process ran ++ [.launched origin launch, .refused fault])
  /-- A line cannot be waited for. -/
  | lost {ran : List ((Origin × Launch) × Capture)} {origin : Origin} {launch : Launch}
      {later : List (Origin × Launch)} {fault : OsFault}
      (next : launches = ran.map Prod.fst ++ (origin, launch) :: later)
      (inTime : ∀ run ∈ ran, run.2.timedOut = false) :
      ListOutcome limit unread process launches (ran.map Prod.snd) (.error (.io fault))
        (ranEvents limit process ran ++
          ([.launched origin launch, .waited (process + ran.length) limit (.error fault)] ++
            cleanUp [process + ran.length]))

/-- One more line is run to its end before the others. -/
theorem ListOutcome.cons {limit : Option Duration} {unread : Option ParseFault}
    {process : ProcessId} {launches : List (Origin × Launch)} {captures : List Capture}
    {ended : Except Error Unit} {events : Trace}
    (outcome : ListOutcome limit unread (process + 1) launches captures ended events)
    (origin : Origin) (launch : Launch) {captured : Capture} (inTime : captured.timedOut = false) :
    ListOutcome limit unread process ((origin, launch) :: launches) (captured :: captures) ended
      ([.launched origin launch, .waited process limit (.ok captured)] ++ cleanUp [process] ++
        events) := by
  have inTimeToo {ran : List ((Origin × Launch) × Capture)}
      (others : ∀ run ∈ ran, run.2.timedOut = false) :
      ∀ run ∈ ((origin, launch), captured) :: ran, run.2.timedOut = false :=
    List.forall_mem_cons.mpr ⟨inTime, others⟩
  have number (ran : List ((Origin × Launch) × Capture)) : process + 1 + ran.length =
      process + (((origin, launch), captured) :: ran).length := by
    rw [List.length_cons, Nat.add_assoc, Nat.add_comm 1]
  cases outcome with
  | done all others =>
      exact @ListOutcome.done _ _ _ _ (_ :: _) (congrArg (_ :: ·) all) (inTimeToo others)
  | @late ran _ _ _ _ next others timedOut =>
      rw [number ran, ← List.append_assoc]
      exact @ListOutcome.late _ _ _ _ (_ :: _) _ _ _ _ (congrArg (_ :: ·) next) (inTimeToo others)
        timedOut
  | refused next others =>
      rw [← List.append_assoc]
      exact @ListOutcome.refused _ _ _ _ (_ :: _) _ _ _ _ (congrArg (_ :: ·) next)
        (inTimeToo others)
  | @lost ran _ _ _ _ next others =>
      rw [number ran, ← List.append_assoc]
      exact @ListOutcome.lost _ _ _ _ (_ :: _) _ _ _ _ (congrArg (_ :: ·) next)
        (inTimeToo others)

/-! ## One line -/

section Line

variable {host : Host} {limit : Option Duration} {origin : Origin} {launch : Launch}
  {process : ProcessId} {trace : Trace}

/-- Cleaning up asks nothing of the host. -/
theorem Host.answersAll_cleanUp_append (processes : List ProcessId) (before later : Trace) :
    host.AnswersAll before (cleanUp processes ++ later) ↔
      host.AnswersAll (before ++ cleanUp processes) later := by
  induction processes generalizing before with
  | nil =>
      rw [cleanUp, List.flatMap_nil, List.append_nil]
      rfl
  | cons process processes ih =>
      have first : host.AnswersAll before (cleanUp (process :: processes) ++ later) ↔
          host.AnswersAll (before ++ [.killed process] ++ [.reaped process])
            (cleanUp processes ++ later) := by
        simp [cleanUp, AnswersAll, Answers]
      rw [first, ih]
      simp [cleanUp]

theorem Host.answersAll_refused {fault : OsFault} (refusal : host.refusal trace launch = some fault) :
    host.AnswersAll trace [.launched origin launch, .refused fault] :=
  ⟨refusal, trivial, trivial⟩

theorem Host.answersAll_waited {outcome : Except OsFault Capture}
    (accepted : host.refusal trace launch = none)
    (waited : host.wait (trace ++ [.launched origin launch]) process limit = outcome)
    {processes : List ProcessId} {later : Trace}
    (behind : host.AnswersAll (trace ++ ([.launched origin launch, .waited process limit outcome] ++
      cleanUp processes)) later) :
    host.AnswersAll trace ([.launched origin launch, .waited process limit outcome] ++
      cleanUp processes ++ later) := by
  refine ⟨accepted, waited, ?_⟩
  rw [← List.append_assoc, List.append_cons] at behind
  exact (host.answersAll_cleanUp_append processes _ later).mpr behind

/-- A line that cannot be started. -/
theorem runLineProcess_of_refusal {fault : OsFault}
    (refusal : host.refusal trace launch = some fault) :
    runLineProcess host limit origin launch process trace =
      (.error (.spawn launch.program fault),
        trace ++ [.launched origin launch, .refused fault]) := by
  simp [runLineProcess, start, refusal]

/-- A line that is started is waited for and cleaned up, twice if its time runs out. -/
theorem runLineProcess_of_wait {outcome : Except OsFault Capture}
    (accepted : host.refusal trace launch = none)
    (waited : host.wait (trace ++ [.launched origin launch]) process limit = outcome) :
    runLineProcess host limit origin launch process trace =
      (outcome.mapError .io,
        trace ++ ([.launched origin launch, .waited process limit outcome] ++
          cleanUp (if outcome.toOption.any Capture.timedOut then [process, process]
            else [process]))) := by
  cases outcome with
  | error fault => simp [runLineProcess, start, accepted, capture, waited, Except.toOption]
  | ok captured =>
      cases timedOut : captured.timedOut <;>
        simp [runLineProcess, start, accepted, capture, waited, Except.toOption, timedOut, cleanUp]

end Line

/-! ## All lines -/

/-- A line that changes the directory is a task of its own, whatever its words are. -/
theorem LineTask.ofLine_trim (line : Text) :
    LineTask.ofLine line.trim =
      match cdTarget? line with
      | some target => .ok (.changeDir target)
      | none => (Words.split line.trim).map fun words =>
          match words with
          | [] => .nothing
          | program :: args => .start program args := by
  rw [LineTask.ofLine, cdTarget?]
  cases line.trim.after? ['c', 'd', ' '] with
  | some target => rfl
  | none =>
      cases Words.split line.trim with
      | error fault => rfl
      | ok words => cases words <;> rfl

/-- A line is started in the context that the lines before it have left. -/
theorem lineLaunch_contextAfter (start : Context) (before : List Text)
    (payload : Option (List UInt8)) (line program : Text) (args : List Text) :
    lineLaunch (contextAfter start before) payload program args =
      ((Turn.mk before line program args).launch start payload).2 := by
  rw [Turn.launch, ← env_contextAfter start before]
  cases payload <;> rfl

/-- How one line that is executed and the lines behind it end. -/
theorem exists_outcome_of_start (host : Host) (limit : Option Duration) {origin : Origin}
    {launch : Launch} {unread : Option ParseFault} {launches : List (Origin × Launch)}
    {process : ProcessId} (tally : Tally) {trace : Trace}
    {goOn : Tally → Trace → Except Error Tally × Trace}
    (behind : ∀ captured trace, ∃ captures ended events,
      ListOutcome limit unread (process + 1) launches captures ended events ∧
        goOn (tally.add captured) trace =
          (ended.map fun _ => captures.foldl Tally.add (tally.add captured), trace ++ events) ∧
        host.AnswersAll trace events) :
    ∃ captures ended events,
      ListOutcome limit unread process ((origin, launch) :: launches) captures ended events ∧
        (match runLineProcess host limit origin launch process trace with
          | (.error error, trace) => (.error error, trace)
          | (.ok captured, trace) =>
            if captured.timedOut then (.ok (tally.add captured), trace)
            else goOn (tally.add captured) trace) =
          (ended.map fun _ => captures.foldl Tally.add tally, trace ++ events) ∧
        host.AnswersAll trace events := by
  cases refusal : host.refusal trace launch with
  | some fault =>
      rw [runLineProcess_of_refusal refusal]
      refine ⟨[], .error (.spawn launch.program fault), _, ?_, rfl,
        host.answersAll_refused refusal⟩
      exact @ListOutcome.refused limit _ process _ [] _ _ _ fault rfl (List.forall_mem_nil _)
  | none =>
      cases waited : host.wait (trace ++ [.launched origin launch]) process limit with
      | error fault =>
          rw [runLineProcess_of_wait refusal waited]
          have answers := @Host.answersAll_waited _ _ _ _ _ _ _ refusal waited [process] [] trivial
          rw [List.append_nil] at answers
          refine ⟨[], .error (.io fault), _, ?_, rfl, answers⟩
          exact @ListOutcome.lost limit _ process _ [] _ _ _ fault rfl (List.forall_mem_nil _)
      | ok captured =>
          rw [runLineProcess_of_wait refusal waited]
          cases timedOut : captured.timedOut with
          | true =>
              have answers :=
                @Host.answersAll_waited _ _ _ _ _ _ _ refusal waited [process, process] [] trivial
              rw [List.append_nil] at answers
              refine ⟨[captured], .ok (), _, ?_, ?_, answers⟩
              · exact @ListOutcome.late limit _ process _ [] _ _ _ captured rfl
                  (List.forall_mem_nil _) timedOut
              · simp [Except.toOption, timedOut, Except.mapError, Except.map]
          | false =>
              obtain ⟨captures, ended, events, outcome, ran, answers⟩ := behind captured
                (trace ++ ([.launched origin launch, .waited process limit (.ok captured)] ++
                  cleanUp [process]))
              refine ⟨captured :: captures, ended, _, outcome.cons origin launch timedOut, ?_,
                Host.answersAll_waited refusal waited answers⟩
              simpa [Except.toOption, timedOut, Except.mapError] using ran

/-- The lines still to come are carried out, in the context that the lines before them have left. -/
theorem exists_outcome_of_runLinesFrom (host : Host) (limit : Option Duration) (start : Context)
    (lines before : List Text) (payload : Option (List UInt8)) (process : ProcessId)
    (tally : Tally) (trace : Trace) :
    ∃ captures ended events,
      ListOutcome limit (turnsFrom before lines).2 process
          (launchesOf start payload (turnsFrom before lines).1) captures ended events ∧
        runLinesFrom host limit lines (contextAfter start before) payload process tally trace =
          (ended.map fun _ => captures.foldl Tally.add tally, trace ++ events) ∧
        host.AnswersAll trace events := by
  induction lines generalizing before payload process tally trace with
  | nil =>
      refine ⟨[], .ok (), [], ?_, by rw [List.append_nil]; rfl, trivial⟩
      exact @ListOutcome.done limit none process [] [] rfl (List.forall_mem_nil _)
  | cons line later ih =>
      have behind := ih (before ++ [line])
      rw [runLinesFrom, LineTask.ofLine_trim, turnsFrom]
      cases isCd : cdTarget? line with
      | some target =>
          have moved : contextAfter start (before ++ [line]) =
              (contextAfter start before).changeDir (some target) := by
            simp [contextAfter, isCd]
          rw [moved] at behind
          exact behind payload process tally trace
      | none =>
          have unmoved : contextAfter start (before ++ [line]) = contextAfter start before := by
            simp [contextAfter, isCd]
          rw [unmoved] at behind
          cases Words.split line.trim with
          | error fault =>
              refine ⟨[], .error (.parse fault), [], ?_, by rw [List.append_nil]; rfl, trivial⟩
              exact @ListOutcome.done limit (some fault) process [] [] rfl (List.forall_mem_nil _)
          | ok words =>
              cases words with
              | nil => exact behind payload process tally trace
              | cons program args =>
                  have launched := lineLaunch_contextAfter start before payload line program args
                  simp only [Except.map, launched]
                  exact exists_outcome_of_start host limit tally fun captured trace =>
                    behind none (process + 1) (tally.add captured) trace

/-! ## What the call reports -/

/-- What a call reports of the processes that it has waited for. -/
def resultOfCaptures (captures : List Capture) : Result where
  stdout := (Utf8.decode (captures.flatMap Capture.stdout)).trim
  stderr := (Utf8.decode (captures.flatMap Capture.stderr)).trim
  exitCode := captures.getLast?.bind Capture.exitCode
  timedOut := captures.getLast?.any Capture.timedOut

/-- The chunks that are kept of some outputs: all that are not empty. -/
def chunksOf (outputs : List (List UInt8)) : List Output.Raw :=
  (outputs.filter (· ≠ [])).map .bytes

/-- A tally joins the outputs, and of the rest it keeps what the last process has left. -/
theorem foldl_add (tally : Tally) (captures : List Capture) :
    captures.foldl Tally.add tally =
      { stdout := tally.stdout ++ captures.flatMap Capture.stdout
        stderr := tally.stderr ++ captures.flatMap Capture.stderr
        exitCode := (captures.getLast?.map Capture.exitCode).getD tally.exitCode
        timedOut := (captures.getLast?.map Capture.timedOut).getD tally.timedOut } := by
  induction captures generalizing tally with
  | nil => simp
  | cons captured captures ih =>
      rw [List.foldl_cons, ih, List.getLast?_cons]
      cases captures.getLast? <;> simp [Tally.add]

theorem result_foldl_add (captures : List Capture) :
    (captures.foldl Tally.add .initial).result = resultOfCaptures captures := by
  have asGiven (tally : Tally) : tally.result =
      ⟨Output.settle tally.stdout, Output.settle tally.stderr, tally.exitCode, tally.timedOut⟩ := by
    obtain ⟨stdout, stderr, exitCode, timedOut⟩ := tally
    cases timedOut <;> cases exitCode <;> rfl
  rw [asGiven, foldl_add, resultOfCaptures]
  cases captures.getLast? <;> rfl

/-- Chunks of bytes are joined before they are decoded, so it does not matter where they are cut
and whether empty ones are kept. -/
theorem normalize_chunksOf (outputs : List (List UInt8)) :
    Output.normalize (.chunks (chunksOf outputs)) = .ok (Utf8.decode outputs.flatten).trim := by
  rw [← List.flatten_filter_ne_nil, chunksOf]
  exact Output.joins_bytes.normalize_map _

/-- A list of lines is carried out in order. A line that begins with `cd ` only changes the
directory and a line without words does nothing; every other one is started once, with its words,
in the directory that the lines before it have left and with the same variables, until one cannot
be read, started or waited for or its time runs out. What is reported is the decoding of all bytes
that the processes waited for have written, and the code of the last of them. -/
theorem lines_are_carried_out_in_order (host : Host) (vars : ProcessVariables) (options : Options)
    (lines : List Text) :
    let start := Context.ofOptions vars options
    let asked := turnsFrom [] lines
    let call := runLines host vars options lines
    Begins vars options start ∧
      contextAfter start [] = start ∧
      (∀ before line,
        LineShifts line (contextAfter start before) (contextAfter start (before ++ [line]))) ∧
      host.AnswersAll [] call.2 ∧
      ∃ captures ended,
        ListOutcome options.timeout asked.2 0 (launchesOf start options.input asked.1) captures
            ended call.2 ∧
          call.1 = ended.map (fun _ => resultOfCaptures captures) ∧
          Output.normalize (.chunks (chunksOf (captures.map Capture.stdout))) =
            .ok (resultOfCaptures captures).stdout ∧
          Output.normalize (.chunks (chunksOf (captures.map Capture.stderr))) =
            .ok (resultOfCaptures captures).stderr := by
  intro start asked call
  obtain ⟨captures, ended, events, outcome, ran, answers⟩ :=
    exists_outcome_of_runLinesFrom host options.timeout start lines [] options.input 0 .initial []
  have inContext : contextAfter start [] = start := rfl
  rw [inContext, List.nil_append] at ran
  have isCall : call = ((ended.map fun _ => captures.foldl Tally.add .initial).map Tally.result,
      events) := by
    simp only [call, runLines, start, ran]
  rw [isCall]
  refine ⟨begins_ofOptions vars options, inContext, lineShifts_contextAfter start, answers,
    captures, ended, outcome, ?_, ?_, ?_⟩
  · cases ended with
    | error error => rfl
    | ok value => exact congrArg Except.ok (result_foldl_add captures)
  · rw [normalize_chunksOf, resultOfCaptures, List.flatMap_def]
  · rw [normalize_chunksOf, resultOfCaptures, List.flatMap_def, List.flatMap_def]

/-- A host on which every process writes the directory that it is started in. -/
def tellingDirectories : Host where
  refusal _ _ := none
  wait trace process _ :=
    let directory := (trace.started[process]?.bind Launch.cwd).getD []
    .ok ⟨Utf8.encode (directory ++ ['\n']), [], some (.exited 0)⟩

/-- An absolute target, and a relative one with blanks in it. -/
theorem cd_lines_move_later_lines :
    let vars : ProcessVariables := [(Utf8.encode "HOME".toList, Utf8.encode "/root".toList)]
    let line := " cd a  b ".toList
    let call := runLines tellingDirectories vars .empty ["cd /tmp".toList, line, "pwd".toList]
    let env := [("HOME".toList, "/root".toList)]
    LineShifts line ⟨some "/tmp".toList, env⟩ ⟨some "/tmp/a  b".toList, env⟩ ∧
      call.2.launches = [(.line "pwd".toList,
        ⟨"pwd".toList, [], some "/tmp/a  b".toList, env, .nothing, .piped, .piped⟩)] ∧
      call.1 = .ok ⟨"/tmp/a  b".toList, [], some 0, false⟩ := by
  intro vars line call env
  obtain ⟨-, -, shifts, -⟩ :=
    lines_are_carried_out_in_order tellingDirectories vars .empty
      ["cd /tmp".toList, line, "pwd".toList]
  refine ⟨?_, ?_, ?_⟩
  · have shifted := shifts ["cd /tmp".toList] line
    have here : contextAfter (.ofOptions vars .empty) ["cd /tmp".toList] =
        ⟨some "/tmp".toList, env⟩ := by decide +kernel
    have behind : contextAfter (.ofOptions vars .empty) ["cd /tmp".toList, line] =
        ⟨some "/tmp/a  b".toList, env⟩ := by decide +kernel
    rwa [here, List.singleton_append, behind] at shifted
  · decide +kernel
  · decide +kernel

/-- A character may begin in the output of one line and end in that of the next. -/
example : resultOfCaptures [⟨[0xC3], [], some (.exited 1)⟩, ⟨[0xA9, 0x0A], [], some (.exited 0)⟩] =
    ⟨['\u00e9'], [], some 0, false⟩ := by decide

end Errand.Local
