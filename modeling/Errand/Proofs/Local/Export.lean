/-
# Values handed on in variables

A line may export a value and refer to it in the command behind. On its way to the command the
value is quoted, unquoted, cut off at the first `=`, put into the environment and put in the place
of the reference. Nothing on that way looks at what the value is made of: it arrives as one
argument, with its blanks, quotes, separators and dollar signs, and is not read again.
-/
import Errand.Proofs.Local.Payload
import Errand.Proofs.Shell.Spelling

namespace Errand.Local

open Run Shell

/-- A word that assigns to a name sets it. -/
theorem assign_of_isName {name : Text} (named : IsName name) (context : Context) (value : Text) :
    context.assign (name ++ '=' :: value) = context.set name value := by
  rw [Context.assign, named.cut?_assignment]
  cases name with
  | nil => exact named.elim
  | cons c rest => rfl

/-- A line with one process launches that one as its spot says, whether it starts or not. -/
theorem launches_of_only_process (host : Host) (vars : ProcessVariables) (options : Options)
    {line : Text} {stages : Pipeline} {spot : Spot} (splits : Pipeline.split line = .ok stages)
    (only : (spots stages).filter Spot.startsProcess = [spot]) :
    (runLine host vars options line).2.launches =
      [(.stage spot.before.length, spot.launch (.ofOptions vars options) options)] := by
  obtain ⟨last, isLast, isCall, outcome⟩ :=
    exists_outcome_of_runLine line host vars options splits
  rw [isCall]
  generalize starts : startStages host options 0 stages (.initial (.ofOptions vars options)) =
    result at outcome
  generalize inOrder : spots stages = all at outcome
  cases outcome with
  | @done _ _ final _ events =>
      subst inOrder
      obtain ⟨-, launches, -⟩ := runPipeline_of_done line isLast starts events
      rw [launches, only]
      rfl
  | @refused earlier other later _ final fault isProcess events =>
      obtain ⟨-, launches, -⟩ := runPipeline_of_refused line starts events
      rw [inOrder, List.filter_append, List.filter_cons, if_pos isProcess,
        List.append_eq_singleton_iff] at only
      rcases only with ⟨noEarlier, same⟩ | ⟨-, none⟩
      · obtain ⟨rfl, -⟩ := List.cons.inj same
        rw [launches, List.filter_append, noEarlier, List.filter_singleton, isProcess]
        rfl
      · cases none

/-- The two stages of a line that exports a value and hands it to a program. -/
theorem split_export (s : Separator) (quoted quotedProgram : Style) (reference : ReferenceStyle)
    {name program : Text} (value : Text) (named : IsName name) (nonempty : program ≠ []) :
    Pipeline.split (Text.join [' '] ["export".toList, name ++ '=' :: quoted.write value, s.glyph,
        quotedProgram.write program, reference.write name]) =
      .ok [⟨Command.ofTexts ["export".toList, name ++ '=' :: value], false⟩,
        ⟨⟨[Word.ofText program, [.reference name reference.isBraced]]⟩, s == .pipe⟩] := by
  have spelled : List.Forall₂ Spells ["export".toList, name ++ '=' :: quoted.write value]
      [Word.ofText "export".toList, Word.ofText (name ++ '=' :: value)] :=
    .cons (spells_text (by decide) (List.all_eq_true.mp (by decide)) (by decide))
      (.cons (named.spells_assignment quoted value) .nil)
  have spelledToo : List.Forall₂ Spells [quotedProgram.write program, reference.write name]
      [Word.ofText program, [.reference name reference.isBraced]] :=
    .cons (spells_write quotedProgram fun _ => nonempty)
      (.cons (named.spells_reference reference) .nil)
  have splits := split_of_spells s spelled spelledToo (List.cons_ne_nil _ _) (List.cons_ne_nil _ _)
  simpa [Text.join, Command.ofTexts] using splits

/-- A value that is exported and referred to in the command behind is one argument of that command,
character by character as it was before it was quoted, and the variable has that value in the
environment of the command. -/
theorem exported_value_is_one_argument (host : Host) (vars : ProcessVariables) (options : Options)
    (s : Separator) (quoted quotedProgram : Style) (reference : ReferenceStyle)
    {name program : Text} (value : Text) (named : IsName name) (nonempty : program ≠ [])
    (noCd : program ≠ "cd".toList) (noExport : program ≠ "export".toList) :
    let start := Context.ofOptions vars options
    let call := runLine host vars options (Text.join [' '] ["export".toList,
      name ++ '=' :: quoted.write value, s.glyph, quotedProgram.write program,
      reference.write name])
    let launch : Launch :=
      ⟨program, [value], start.cwd, start.env.set name value, .nothing, .piped, .piped⟩
    call.2.launches = [(.stage 1, launch)] ∧ launch.env.get? name = some value ∧
      (call.2.refusals = [] → call.2.started = [launch]) := by
  intro start call launch
  let exporting : Stage := ⟨Command.ofTexts ["export".toList, name ++ '=' :: value], false⟩
  let running : Stage :=
    ⟨⟨[Word.ofText program, [.reference name reference.isBraced]]⟩, s == .pipe⟩
  let spot : Spot := ⟨[exporting], running, []⟩
  have exportingArgs : exporting.args = ["export".toList, name ++ '=' :: value] :=
    Command.args_ofTexts _
  have isExport : isBuiltin exporting = true := isBuiltin_of_export exportingArgs
  have isProcess : isBuiltin running = false := by
    have runningArgs : running.args = program :: [Word.text [.reference name reference.isBraced]] :=
      congrArg (· :: _) (Word.text_ofText program)
    have neither : ¬ (program = ['c', 'd'] ∨ program = ['e', 'x', 'p', 'o', 'r', 't']) :=
      not_or.mpr ⟨noCd, noExport⟩
    simpa [isBuiltin_of_args runningArgs] using neither
  have only : (spots [exporting, running]).filter Spot.startsProcess = [spot] := by
    simp [spots, spotsFrom, Spot.startsProcess, isExport, isProcess, spot]
  have behind : spot.context start = start.set name value := by
    have assigned : applied start exporting = start.set name value := by
      simp only [applied, exportingArgs]
      exact assign_of_isName named start value
    simp [Spot.context, spot, contextBehind, isExport, assigned]
  have known : (start.set name value).env.get? name = some value :=
    Environment.get?_set_self name value start.env
  have words : spot.words start = [program, value] := by
    rw [Spot.words, behind, Command.expandFirst, Command.expandWords_ofText, Command.expandWords,
      Word.expandFirst?_reference known]
    simp [Command.args]
  have input : spot.input options = .nothing :=
    Spot.input_of_builtins options (List.cons_ne_nil _ _) (List.forall_mem_singleton.mpr isExport)
  have isLaunch : spot.launch start options = launch := by
    rw [Spot.launch, words, behind, input]
    rfl
  have launches : call.2.launches = [(.stage 1, launch)] := by
    rw [← isLaunch]
    exact launches_of_only_process host vars options
      (split_export s quoted quotedProgram reference value named nonempty) only
  refine ⟨launches, known, fun noRefusal => ?_⟩
  rw [Trace.started_of_refusals_eq_nil noRefusal, launches]
  rfl

/-- A value with a second `=`, a separator and a dollar sign, in a variable that hides an inherited
one, to which the value itself refers. -/
theorem exported_value_reaches_echo :
    let name := "PATH".toList
    let value := "a=b; $PATH | ü".toList
    let vars : ProcessVariables := [(Utf8.encode name, Utf8.encode "/bin".toList)]
    let line := "export PATH='a=b; $PATH | ü' && 'echo' \"$PATH\"".toList
    let launch : Launch :=
      ⟨"echo".toList, [value], none, [(name, value)], .nothing, .piped, .piped⟩
    IsName name ∧ "echo".toList ≠ [] ∧ "echo".toList ≠ "cd".toList ∧
      "echo".toList ≠ "export".toList ∧
      (runLine obliging vars .empty line).2.launches = [(.stage 1, launch)] ∧
      (runLine obliging vars .empty line).2.started = [launch] := by
  intro name value vars line launch
  have named : IsName name := by
    refine ⟨.inr (by decide), ?_⟩
    show ∀ d ∈ ['A', 'T', 'H'], d = '_' ∨ d.isAlphanum = true
    simp
  have nonempty : "echo".toList ≠ [] := by decide
  have noCd : "echo".toList ≠ "cd".toList := by decide
  have noExport : "echo".toList ≠ "export".toList := by decide
  obtain ⟨launches, -, started⟩ := exported_value_is_one_argument obliging vars .empty .and .single
    .single .quoted value named nonempty noCd noExport
  have written : Text.join [' '] ["export".toList, name ++ '=' :: Style.single.write value,
      Separator.and.glyph, Style.single.write "echo".toList, ReferenceStyle.quoted.write name] =
        line := by
    decide
  have env : (Context.ofOptions vars .empty).env.set name value = [(name, value)] := by
    decide +kernel
  have cwd : (Context.ofOptions vars .empty).cwd = none := rfl
  rw [written, env, cwd] at launches started
  exact ⟨named, nonempty, noCd, noExport, launches, started (by decide +kernel)⟩

end Errand.Local
