/-
# One command in both forms

A single line and a list of one line are read by different readers and run by different loops.
What they do with a command is the same: one process is started and waited for, and the result
is made of what is captured. So the two forms agree on every line that their readers agree on.

The readers do not agree on every command. The plain splitter joins lines at an escaped newline
and ends a comment with its own line, and it gets the line trimmed, whatever a backslash at its
end was about to escape.
-/
import Errand.Proofs.Local.Payload
import Errand.Proofs.Shell.Trimming

namespace Errand.Local

open Run Shell

/-! ## What both loops do with a command -/

section Process

variable (host : Host) (vars : ProcessVariables) (options : Options) {line : Text}

/-- The tally of one line gives the result of a line. -/
theorem result_add_initial (captured : Capture) :
    (Tally.initial.add captured).result = resultOf captured := by
  obtain ⟨stdout, stderr, status⟩ := captured
  cases status <;> rfl

/-- A line of one stage runs its process as a list runs that of a line. -/
theorem runLine_of_singleton {stage : Stage} (splits : Pipeline.split line = .ok [stage])
    (noBuiltin : isBuiltin stage = false) :
    let launch := Spot.launch (.ofOptions vars options) options ⟨[], stage, []⟩
    let ran := runLineProcess host options.timeout (.stage 0) launch 0 []
    runLine host vars options line = (ran.1.map resultOf, ran.2) := by
  intro launch ran
  have some := Pipeline.words_ne_nil_of_split splits stage (List.mem_singleton.mpr rfl)
  have starts := @startStages_process host options _ [] [] stage _
    (Reached.initial [stage] : Reached (.ofOptions vars options) [] [stage] _) some noBuiltin
  have isEvent : Spot.event (.ofOptions vars options) options ⟨[], stage, []⟩ =
      .launched (.stage 0) launch := event_of_process noBuiltin
  have isProcess : Spot.process? ⟨[], stage, []⟩ = Option.some 0 := by
    rw [Spot.process?, noBuiltin]
    rfl
  have asked : host.refusal (Progress.initial (.ofOptions vars options)).trace
      (Spot.launch (.ofOptions vars options) options ⟨[], stage, []⟩) =
        host.refusal [] launch := rfl
  simp only [List.length_nil, isEvent, isProcess, asked] at starts
  rw [runLine, splits]
  simp only [runPipeline, starts, ran, runLineProcess, start]
  cases host.refusal [] launch <;> rfl

/-- A list of one line that is no directory change runs the process of that line. -/
theorem runLines_singleton {program : Text} {args : List Text}
    (task : LineTask.ofLine line.trim = .ok (.start program args)) :
    let launch := lineLaunch (.ofOptions vars options) options.input program args
    let ran := runLineProcess host options.timeout (.line line.trim) launch 0 []
    runLines host vars options [line] = (ran.1.map resultOf, ran.2) := by
  intro launch ran
  simp only [ran, launch, runLines, runLinesFrom, task]
  generalize runLineProcess host options.timeout (.line line.trim) _ 0 [] = result
  obtain ⟨outcome, trace⟩ := result
  cases outcome with
  | error fault => rfl
  | ok captured =>
      have tallied : (Tally.initial.add captured).result = resultOf captured :=
        result_add_initial captured
      by_cases late : captured.timedOut = true <;> simp [late, Except.map, tallied]

/-- In a call that runs one process, that is the only launch, and the only process if the launch
is not refused. -/
theorem runLineProcess_events (limit : Option Duration) (origin : Origin) (launch : Launch) :
    let ran := runLineProcess host limit origin launch 0 []
    ran.2.launches = [(origin, launch)] ∧
      ran.2.started = if host.refusal [] launch = none then [launch] else [] := by
  intro ran
  obtain ⟨outcome, events, isRan, launches, started, -⟩ :=
    exists_events_of_runLineProcess host limit origin launch 0 []
  have alone := started []
  rw [List.append_nil, Trace.started, List.append_nil] at alone
  have isEvents : ran.2 = events := congrArg Prod.snd isRan
  rw [isEvents]
  exact ⟨launches, alone⟩

/-- What comes of a process does not depend on the part of the call that it is for, if the host
does not. -/
theorem runLineProcess_outcome {limit : Option Duration} {origin other : Origin} {launch : Launch}
    (same : host.wait [.launched origin launch] 0 limit =
      host.wait [.launched other launch] 0 limit) :
    (runLineProcess host limit origin launch 0 []).1 =
      (runLineProcess host limit other launch 0 []).1 := by
  simp only [runLineProcess, start]
  cases host.refusal [] launch with
  | some fault => rfl
  | none =>
      simp only [List.nil_append, capture, same]
      cases host.wait [.launched other launch] 0 limit <;> rfl

end Process

/-! ## What both readers make of a line -/

/-- A stage that stands alone is launched as a line of its words is. -/
theorem launch_alone {start : Context} {options : Options} {stage : Stage} {program : Text}
    {args : List Text} (words : (stage.command.expandFirst start.env).args = program :: args) :
    Spot.launch start options ⟨[], stage, []⟩ = lineLaunch start options.input program args := by
  have unchanged : Spot.context start ⟨[], stage, []⟩ = start := rfl
  have reads : Spot.input options ⟨[], stage, []⟩ =
      (lineLaunch start options.input program args).input := by
    rw [Spot.input_of_front options rfl, lineLaunch_input]
  rw [Spot.launch, Spot.words, unchanged, words, reads]
  rfl

/-- A line that is split plainly is executed, unless its program is `cd`. -/
theorem LineTask.ofLine_of_split {line program : Text} {args : List Text}
    (splits : Words.split line = .ok (program :: args)) (noCd : program ≠ ['c', 'd']) :
    LineTask.ofLine line = .ok (.start program args) := by
  have elsewhere : line.after? ['c', 'd', ' '] = none := by
    rw [Option.eq_none_iff_forall_ne_some]
    intro rest begins
    obtain rfl := Text.after?_eq_some_iff.mp begins
    have read : Words.splitFrom .bare none (['c', 'd', ' '] ++ rest) =
        (Words.splitFrom .bare none rest).map (['c', 'd'] :: ·) := by
      rw [List.cons_append, List.cons_append, List.cons_append,
        Words.splitFrom_plain (by decide) (by decide) (by decide),
        Words.splitFrom_plain (by decide) (by decide) (by decide),
        Words.splitFrom_gap (by decide)]
      rfl
    have same := Words.toOption_split (['c', 'd', ' '] ++ rest)
    rw [splits, read] at same
    obtain ⟨words, -, isCd⟩ := Option.map_eq_some_iff.mp same.symm
    exact noCd (List.cons.inj isCd).1.symm
  rw [LineTask.ofLine, elsewhere]
  simp only [splits]
  rfl

/-- A line that is one command and leaves nothing to substitute and no builtin to carry out. -/
structure IsSimple (env : Environment) (line : Text) : Prop where
  /-- It is read as words alone. -/
  words : ∃ tokens, Token.lex line = .ok tokens ∧ Item.ofTokens tokens ≠ [] ∧
    ∀ s, .cut s ∉ Item.ofTokens tokens
  /-- Its last character is no backslash that is itself unescaped. -/
  finished : Place.atEnd line ≠ .escape
  /-- The blanks outside quotes are space, tab and newline. -/
  gaps : Place.gap.Throughout
    (fun place c => place.isBare = true → isBlank c = true → Words.isGap c = true) line
  unknown : ∀ stages, Pipeline.split line = .ok stages → ∀ stage ∈ stages,
    ∀ word ∈ stage.command.words, ∀ reference ∈ word.references, env.get? reference.name = none
  noBuiltin : ∀ stages, Pipeline.split line = .ok stages → ∀ stage ∈ stages,
    isBuiltin stage = false

/-- For a line that is known to be one stage, what is said of its stages is said of that one. -/
theorem IsSimple.of_stage {env : Environment} {line : Text} {tokens : List Token} {stage : Stage}
    (lexed : Token.lex line = .ok tokens) (some : Item.ofTokens tokens ≠ [])
    (uncut : ∀ s, .cut s ∉ Item.ofTokens tokens) (finished : Place.atEnd line ≠ .escape)
    (gaps : Place.gap.Throughout
      (fun place c => place.isBare = true → isBlank c = true → Words.isGap c = true) line)
    (splits : Pipeline.split line = .ok [stage])
    (unknown : ∀ word ∈ stage.command.words, ∀ reference ∈ word.references,
      env.get? reference.name = none)
    (noBuiltin : isBuiltin stage = false) : IsSimple env line where
  words := ⟨tokens, lexed, some, uncut⟩
  finished := finished
  gaps := gaps
  unknown := by
    intro stages same
    obtain rfl := Except.ok.inj (splits.symm.trans same)
    exact List.forall_mem_singleton.mpr unknown
  noBuiltin := by
    intro stages same
    obtain rfl := Except.ok.inj (splits.symm.trans same)
    exact List.forall_mem_singleton.mpr noBuiltin

/-- A simple command that is split plainly as it is read runs the same in both forms: the same
process is started, or refused, and as it behaves the same the results are equal. -/
theorem forms_agree (host : Host) (vars : ProcessVariables) (options : Options) {line : Text}
    (simple : IsSimple (Context.ofOptions vars options).env line)
    (plainly : TrimsPlainly line) :
    let context := Context.ofOptions vars options
    let alone := runLine host vars options line
    let listed := runLines host vars options [line]
    ∃ stage launch, Pipeline.split line = .ok [stage] ∧
      launch.program :: launch.args = stage.args ∧ launch.cwd = context.cwd ∧
      launch.env = context.env ∧ launch.input = options.input.elim .nothing .payload ∧
      alone.2.launches = [(.stage 0, launch)] ∧
      listed.2.launches = [(.line line.trim, launch)] ∧
      alone.2.started = listed.2.started ∧
      (host.wait [.launched (.stage 0) launch] 0 options.timeout =
          host.wait [.launched (.line line.trim) launch] 0 options.timeout →
        alone.1 = listed.1) := by
  intro context alone listed
  obtain ⟨tokens, lexed, some, uncut⟩ := simple.words
  obtain ⟨stage, splits, plain⟩ := plainly.exists_stage simple.gaps lexed some uncut
  have member : stage ∈ [stage] := List.mem_singleton.mpr rfl
  have noBuiltin := simple.noBuiltin _ splits stage member
  have unexpanded : stage.command.expandFirst context.env = stage.command :=
    Command.expandFirst_of_unknown (simple.unknown _ splits stage member)
  obtain ⟨program, args, words⟩ : ∃ program args, stage.args = program :: args := by
    refine List.exists_cons_of_ne_nil ?_
    simpa [Stage.args, Command.args] using Pipeline.words_ne_nil_of_split splits stage member
  have noCd : program ≠ ['c', 'd'] := by
    rintro rfl
    rw [isBuiltin_of_cd words] at noBuiltin
    cases noBuiltin
  rw [words] at plain
  have isAlone := runLine_of_singleton host vars options splits noBuiltin
  have isListed := runLines_singleton host vars options (LineTask.ofLine_of_split plain noCd)
  rw [launch_alone (by rw [unexpanded]; exact words)] at isAlone
  obtain ⟨launches, started⟩ := runLineProcess_events host options.timeout (.stage 0)
    (lineLaunch context options.input program args)
  obtain ⟨launchesToo, startedToo⟩ := runLineProcess_events host options.timeout
    (.line line.trim) (lineLaunch context options.input program args)
  refine ⟨stage, lineLaunch context options.input program args, splits, words.symm, rfl, rfl,
    lineLaunch_input context options.input program args, ?_, ?_, ?_, fun same => ?_⟩
  · rw [← launches]
    exact congrArg (Trace.launches ·.2) isAlone
  · rw [← launchesToo]
    exact congrArg (Trace.launches ·.2) isListed
  · calc alone.2.started = _ := congrArg (Trace.started ·.2) isAlone
      _ = _ := started.trans startedToo.symm
      _ = listed.2.started := congrArg (Trace.started ·.2) isListed.symm
  · calc alone.1 = _ := congrArg Prod.fst isAlone
      _ = _ := congrArg (Except.map resultOf) (runLineProcess_outcome host same)
      _ = listed.1 := congrArg Prod.fst isListed.symm

/-- Blanks at both ends, a quoted gap, an escaped separator and a comment. -/
theorem forms_agree_on_echo :
    let line := "  echo 'a b' \\; # c ".toList
    IsSimple [] line ∧ TrimsPlainly line ∧
      (runLine obliging [] .empty line).1 = (runLines obliging [] .empty [line]).1 := by
  intro line
  let tokens : List Token :=
    [.word "echo".toList, .word "'a b'".toList, .backslash, .separator .semi]
  have uncut : ∀ s, .cut s ∉ Item.ofTokens tokens := by
    intro s
    cases s <;> decide
  have splits : Pipeline.split line =
      .ok [⟨.ofTexts ["echo".toList, "a b".toList, ";".toList], false⟩] := by
    decide +kernel
  have lexed : Token.lex line = .ok tokens := by rfl
  have simple : IsSimple [] line :=
    .of_stage lexed (by decide) uncut (by decide) (by decide) splits (by decide) (by decide)
  have plainly : TrimsPlainly line := .of_no_newline (by decide) (by decide)
  obtain ⟨stage, launch, -, -, -, -, -, -, -, -, agree⟩ :=
    forms_agree obliging [] .empty simple plainly
  exact ⟨simple, plainly, agree rfl⟩

/-- An escaped blank at the end, an escaped newline and a line behind a comment: the forms do not
start the same process, and for the first line the list starts none. -/
theorem forms_differ :
    let alone (line : String) :=
      (runLine obliging [] .empty line.toList).2.started.map Launch.args
    let listed (line : String) :=
      (runLines obliging [] .empty [line.toList]).2.started.map Launch.args
    (IsSimple [] "echo a\\ ".toList ∧ alone "echo a\\ " = [["a ".toList]] ∧
      listed "echo a\\ " = []) ∧
    (IsSimple [] "echo a\\\nb".toList ∧ alone "echo a\\\nb" = [["a\nb".toList]] ∧
      listed "echo a\\\nb" = [["ab".toList]]) ∧
    IsSimple [] "echo a # c\nb".toList ∧ alone "echo a # c\nb" = [["a".toList]] ∧
      listed "echo a # c\nb" = [["a".toList, "b".toList]] := by
  intro alone listed
  have simple {line raw : Text} (text : Text)
      (lexed : Token.lex line = .ok [.word "echo".toList, .word raw])
      (finished : Place.atEnd line ≠ .escape)
      (gaps : Place.gap.Throughout
        (fun place c => place.isBare = true → isBlank c = true → Words.isGap c = true) line)
      (splits : Pipeline.split line = .ok [⟨.ofTexts ["echo".toList, text], false⟩]) :
      IsSimple [] line := by
    refine .of_stage lexed (by simp [Item.ofTokens, Item.resolve]) ?_ finished gaps splits ?_ rfl
    · simp [Item.ofTokens, Item.resolve]
    · exact fun _ _ _ _ => rfl
  refine ⟨⟨simple "a ".toList (by rfl) (by decide) (by decide) (by decide +kernel), ?_, ?_⟩,
    ⟨simple "a\nb".toList (by rfl) (by decide) (by decide) (by decide +kernel), ?_, ?_⟩,
    simple "a".toList (by rfl) (by decide) (by decide) (by decide +kernel), ?_, ?_⟩
  all_goals decide +kernel

end Errand.Local
