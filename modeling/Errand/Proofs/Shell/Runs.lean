/-
# Runs of tokens

A separator cuts the tokens of a line unless a backslash stands right before it. Between two cuts
stands a run of tokens, and the stages of the line are the words of the runs that are not empty. A
stage knows no more of the line than the separator right before its run: whatever other separators
and empty runs stand between it and the stage before, it reads that stage exactly if this
separator is a pipe.

A line can always be split if it holds a token other than a separator, because every word that is
read leaves no quote open.
-/
import Errand.Proofs.Shell.Joining
import Errand.Proofs.Shell.Pieces

namespace Errand.Shell

/-! ## Words between cuts -/

/-- The words that tokens with no cut among them are. A separator is a word if it stands right
behind a backslash. -/
inductive Token.ReadAs : List Token → List Word → Prop
  | nil : ReadAs [] []
  | word {raw : Text} {word : Word} {tokens : List Token} {words : List Word}
      (unquotes : Word.unquote raw = .ok word) (later : ReadAs tokens words) :
      ReadAs (.word raw :: tokens) (word :: words)
  | escaped (s : Separator) {tokens : List Token} {words : List Word}
      (later : ReadAs tokens words) :
      ReadAs (.backslash :: .separator s :: tokens) (Word.ofText s.glyph :: words)
  /-- A backslash with nothing behind it is a word of its own. -/
  | lastBackslash : ReadAs [.backslash] [Word.ofText ['\\']]

/-- Tokens between two cuts and the words that they are. -/
structure Run where
  tokens : List Token
  words : List Word
  reads : Token.ReadAs tokens words

/-- Tokens consist of a first run and more runs, each behind the separator that cuts it off. Runs
hold no separator that could cut, so there is one way to cut tokens. -/
structure CutInto (tokens : List Token) (first : Run) (links : List (Separator × Run)) : Prop where
  whole : tokens = first.tokens ++ links.flatMap fun link => .separator link.1 :: link.2.tokens
  /-- No separator behind a backslash cuts. -/
  unescaped : ∀ run ∈ (first :: links.map Prod.snd).dropLast,
    run.tokens.getLast? ≠ some .backslash

/-- The groups of words that runs are, each with the separator before it. -/
def groupsOf (first : Run) (links : List (Separator × Run)) : List (Option Separator × List Word) :=
  (none, first.words) :: links.map fun link => (some link.1, link.2.words)

/-- The stages of groups of words: one for each group that is not empty. -/
def Pipeline.ofGroups (groups : List (Option Separator × List Word)) : Pipeline :=
  (groups.filter fun group => !group.2.isEmpty).mapIdx fun index group =>
    ⟨⟨group.2⟩, index != 0 && group.1 == some .pipe⟩

/-- More tokens that do not end with a backslash can be read in front. -/
theorem Token.ReadAs.append {tokens more : List Token} {words others : List Word}
    (reads : ReadAs tokens words) (unescaped : tokens.getLast? ≠ some .backslash)
    (behind : ReadAs more others) : ReadAs (tokens ++ more) (words ++ others) := by
  induction reads with
  | nil => exact behind
  | @word raw word tokens words unquotes later ih =>
      refine .word unquotes (ih fun last => unescaped ?_)
      rw [List.getLast?_cons, last]
      rfl
  | @escaped s tokens words later ih =>
      refine .escaped s (ih fun last => unescaped ?_)
      rw [List.getLast?_cons, List.getLast?_cons, last]
      rfl
  | lastBackslash => exact absurd rfl unescaped

namespace CutInto

variable {tokens : List Token} {first : Run} {links : List (Separator × Run)}

/-- The first run can be made longer. -/
theorem append_front (front : List Token) {longer : Run} (cutInto : CutInto tokens first links)
    (same : longer.tokens = front ++ first.tokens) (ends : front.getLast? ≠ some .backslash) :
    CutInto (front ++ tokens) longer links where
  whole := by rw [same, List.append_assoc, ← cutInto.whole]
  unescaped := by
    have unescaped := cutInto.unescaped
    cases links with
    | nil => exact List.forall_mem_nil _
    | cons link links =>
        rw [List.map_cons, List.dropLast_cons_cons, List.forall_mem_cons] at unescaped ⊢
        refine ⟨?_, unescaped.2⟩
        rw [same, List.getLast?_append]
        cases last : first.tokens.getLast? with
        | none => exact ends
        | some token => exact fun same => unescaped.1 (last.trans same)

/-- A separator cuts off all that stands behind it. -/
theorem cut (s : Separator) (cutInto : CutInto tokens first links) :
    CutInto (.separator s :: tokens) ⟨[], [], .nil⟩ ((s, first) :: links) where
  whole := congrArg (.separator s :: ·) cutInto.whole
  unescaped := List.forall_mem_cons.mpr ⟨by simp, cutInto.unescaped⟩

/-- The tokens that are not cuts are the words of all runs, one behind the other. -/
theorem readAs (cutInto : CutInto tokens first links) :
    Token.ReadAs (first.tokens ++ links.flatMap fun link => link.2.tokens)
      ((groupsOf first links).flatMap Prod.snd) := by
  have unescaped := cutInto.unescaped
  clear cutInto
  induction links generalizing first with
  | nil => simpa [groupsOf] using first.reads
  | cons link links ih =>
      rw [List.map_cons, List.dropLast_cons_cons, List.forall_mem_cons] at unescaped
      exact first.reads.append unescaped.1 (ih unescaped.2)

end CutInto

/-! ## Groups and stages -/

namespace Pipeline

/-- The stages of groups that are closed one after the other. -/
def closeGroups : Bool → List (Option Separator × List Word) → List Stage
  | _, [] => []
  | isFirst, (preceding, words) :: groups =>
    closeGroup isFirst preceding words ++ closeGroups (isFirst && words.isEmpty) groups

theorem words_closeGroups (isFirst : Bool) (groups : List (Option Separator × List Word)) :
    ((closeGroups isFirst groups).flatMap fun stage => stage.command.words) =
      groups.flatMap Prod.snd := by
  induction groups generalizing isFirst with
  | nil => rfl
  | cons group groups ih =>
      obtain ⟨preceding, words⟩ := group
      rw [closeGroups, List.flatMap_append, ih, List.flatMap_cons]
      cases words <;> simp [closeGroup]

/-- Behind a stage every group is closed alike. -/
theorem closeGroups_false (groups : List (Option Separator × List Word)) :
    closeGroups false groups =
      (groups.filter fun group => !group.2.isEmpty).map fun group =>
        ⟨⟨group.2⟩, group.1 == some .pipe⟩ := by
  induction groups with
  | nil => rfl
  | cons group groups ih =>
      obtain ⟨preceding, words⟩ := group
      rw [closeGroups, Bool.false_and, ih]
      cases words <;> rfl

/-- The first stage is that of the first group that is not empty. -/
theorem closeGroups_true (groups : List (Option Separator × List Word)) :
    closeGroups true groups = ofGroups groups := by
  induction groups with
  | nil => rfl
  | cons group groups ih =>
      obtain ⟨preceding, words⟩ := group
      cases words with
      | nil => exact ih
      | cons word words =>
          rw [closeGroups, List.isEmpty_cons, Bool.and_false, closeGroups_false, ofGroups]
          simp only [closeGroup, List.isEmpty_cons, Bool.not_true, Bool.false_and, Bool.not_false,
            List.filter_cons_of_pos, List.mapIdx_cons]
          refine congrArg (List.cons _) (List.ext_getElem? fun number => ?_)
          simp

end Pipeline

/-- Tokens that can be unquoted are cut into runs, and their items are grouped by run. Behind the
last token only a backslash can be left. -/
theorem exists_cutInto {tokens : List Token} (settled : Item.Settled tokens)
    (ending : Token.LineEnd)
    (unquotes : ∀ raw, .word raw ∈ tokens → ∃ word, Word.unquote raw = .ok word) :
    ∃ first links, CutInto (tokens ++ ending.waiting) first links ∧
      ∀ isFirst preceding collected,
        Pipeline.group isFirst preceding collected (Item.resolve 0 (tokens ++ ending.waiting)) =
          .ok (Pipeline.closeGroups isFirst ((preceding, collected ++ first.words) ::
            links.map fun link => (some link.1, link.2.words))) := by
  induction settled with
  | nil =>
      have alone (run : Run) : CutInto run.tokens run [] :=
        ⟨(List.append_nil _).symm, List.forall_mem_nil _⟩
      cases ending with
      | bare | comment =>
          refine ⟨⟨[], [], .nil⟩, [], alone ⟨[], [], .nil⟩, fun isFirst preceding collected => ?_⟩
          simp [Token.LineEnd.waiting, Item.resolve, Pipeline.group, Pipeline.closeGroups]
      | backslash =>
          refine ⟨_, [], alone ⟨_, _, .lastBackslash⟩, fun isFirst preceding collected => ?_⟩
          simp [Token.LineEnd.waiting, Item.resolve, Pipeline.group, Pipeline.closeGroups]
  | word raw later ih =>
      obtain ⟨word, isWord⟩ := unquotes raw List.mem_cons_self
      obtain ⟨first, links, cutInto, grouped⟩ := ih fun raw member =>
        unquotes raw (List.mem_cons_of_mem _ member)
      refine ⟨⟨_, _, .word isWord first.reads⟩, links,
        cutInto.append_front [.word raw] rfl (by simp), fun isFirst preceding collected => ?_⟩
      rw [List.cons_append, Item.resolve, Pipeline.group, isWord]
      simp only [bind, Except.bind, grouped]
      simp
  | separator s later ih =>
      obtain ⟨first, links, cutInto, grouped⟩ := ih fun raw member =>
        unquotes raw (List.mem_cons_of_mem _ member)
      refine ⟨_, _, cutInto.cut s, fun isFirst preceding collected => ?_⟩
      rw [List.cons_append, Item.resolve, Pipeline.group]
      simp only [bind, Except.bind, grouped]
      simp [Pipeline.closeGroups, pure, Except.pure]
  | escaped s later ih =>
      obtain ⟨first, links, cutInto, grouped⟩ := ih fun raw member =>
        unquotes raw (List.mem_cons_of_mem _ (List.mem_cons_of_mem _ member))
      refine ⟨⟨_, _, .escaped s first.reads⟩, links,
        cutInto.append_front [.backslash, .separator s] rfl (by simp),
        fun isFirst preceding collected => ?_⟩
      rw [List.cons_append, List.cons_append, Item.resolve, Item.resolve, Pipeline.group, grouped]
      simp

/-- Tokens that are not all separators hold something other than cuts, be it only a backslash at
the end. -/
theorem Item.exists_mem_ofTokens {tokens : List Token} (settled : Settled tokens)
    {ending : Token.LineEnd} {token : Token} (member : token ∈ tokens ++ ending.waiting)
    (noSeparator : ∀ s, token ≠ .separator s) :
    ∃ item ∈ ofTokens (tokens ++ ending.waiting), ∀ s, item ≠ .cut s := by
  rw [ofTokens, settled.resolve_append]
  rcases List.mem_append.mp member with inTokens | waits
  · obtain ⟨item, found, noCut⟩ := settled.exists_mem_resolve inTokens noSeparator
    exact ⟨item, List.mem_append_left _ found, noCut⟩
  · cases ending with
    | bare | comment => cases waits
    | backslash => exact ⟨.literal ['\\'], List.mem_append_right _ List.mem_cons_self, by simp⟩

/-- Every word of a line can be unquoted. -/
theorem Token.exists_unquote_of_lex {line : Text} {tokens : List Token}
    (lexed : lex line = .ok tokens) :
    ∀ raw, .word raw ∈ tokens → ∃ word, Word.unquote raw = .ok word := by
  intro raw member
  obtain ⟨ending, scanned⟩ := lex_eq_ok_iff.mp lexed
  have isWhole := isWhole_of_scanned scanned (.none line) raw member
  rw [Word.exists_unquote_iff, isWhole.closed]
  rfl

namespace Pipeline

/-- Separators alone make no stage. -/
theorem group_cuts (isFirst : Bool) (preceding : Option Separator) (separators : List Separator) :
    group isFirst preceding [] (separators.map .cut) = .ok [] := by
  induction separators generalizing isFirst preceding with
  | nil => rfl
  | cons s separators ih =>
      rw [List.map_cons, group, ih]
      rfl

/-- Two separators or more alone are no command. -/
theorem split_eq_error {line : Text} {separators : List Separator}
    (lexed : Token.lex line = .ok (separators.map .separator)) (several : 2 ≤ separators.length) :
    split line = .error (.noCommand line) := by
  have items : Item.ofTokens (separators.map .separator) = separators.map .cut := by
    clear lexed several
    induction separators with
    | nil => rfl
    | cons s separators ih => exact congrArg (Item.cut s :: ·) ih
  have grouped := group_cuts true none separators
  rw [← group_dropFinalCut] at grouped
  rw [split, lexed]
  simp only [bind, Except.bind, items]
  obtain ⟨s, t, further, rfl⟩ : ∃ s t further, separators = s :: t :: further := by
    rcases separators with _ | ⟨s, _ | ⟨t, further⟩⟩
    · exact absurd several (by decide)
    · exact absurd several (by simp)
    · exact ⟨s, t, further, rfl⟩
  have some : Item.dropFinalCut ((s :: t :: further).map .cut) =
      .cut s :: Item.dropFinalCut ((t :: further).map .cut) := by
    simp [Item.dropFinalCut]
  rw [some] at grouped ⊢
  simp only [grouped]

end Pipeline

/-- A line with a token that is no separator is split at the separators that are not behind a
backslash. Its stages are the groups of words between them that are not empty, and all tokens but
these separators are words of a stage, once and in order. A stage but for the first one reads the
stage before it exactly if the separator right before its own words is a pipe. A line of two or
more separators alone cannot be split. -/
theorem stages_are_runs_between_cuts {line : Text} {tokens : List Token}
    (lexed : Token.lex line = .ok tokens) :
    ((∃ token ∈ tokens, ∀ s, token ≠ .separator s) →
      ∃ first links, CutInto tokens first links ∧
        ∃ stages, Pipeline.split line = .ok stages ∧
          stages = Pipeline.ofGroups (groupsOf first links) ∧
          Token.ReadAs (first.tokens ++ links.flatMap fun link => link.2.tokens)
            (stages.flatMap fun stage => stage.command.words)) ∧
      ∀ separators : List Separator, tokens = separators.map .separator → 2 ≤ tokens.length →
        Pipeline.split line = .error (.noCommand line) := by
  constructor
  · rintro ⟨token, member, noSeparator⟩
    have unquotes := Token.exists_unquote_of_lex lexed
    obtain ⟨ending, scanned⟩ := Token.lex_eq_ok_iff.mp lexed
    obtain ⟨settled, isSettled, rfl⟩ := scanned.exists_settled
    obtain ⟨first, links, cutInto, grouped⟩ := exists_cutInto isSettled ending fun raw inSettled =>
      unquotes raw (List.mem_append_left _ inSettled)
    refine ⟨first, links, cutInto, _, ?_, rfl, ?_⟩
    · obtain ⟨item, found, noCut⟩ := Item.exists_mem_ofTokens isSettled member noSeparator
      rw [Pipeline.split_eq_group lexed found noCut, ← Pipeline.closeGroups_true]
      exact grouped true none []
    · rw [← Pipeline.closeGroups_true, Pipeline.words_closeGroups]
      exact cutInto.readAs
  · rintro separators rfl several
    exact Pipeline.split_eq_error lexed (by simpa using several)

/-- Separators in front, in a row and behind a backslash, and a backslash at the end. -/
theorem three_runs_are_stages :
    let line := "| cat a \\| b ;; | wc ;\\".toList
    let tokens : List Token := [.separator .pipe, .word "cat".toList, .word ['a'], .backslash,
      .separator .pipe, .word ['b'], .separator .semi, .separator .semi, .separator .pipe,
      .word "wc".toList, .separator .semi, .backslash]
    Token.lex line = .ok tokens ∧
      Pipeline.split line = .ok [⟨.ofTexts ["cat".toList, ['a'], ['|'], ['b']], false⟩,
        ⟨.ofTexts ["wc".toList], true⟩, ⟨.ofTexts [['\\']], false⟩] ∧
      (∃ first links, CutInto tokens first links ∧
        ∃ stages, Pipeline.split line = .ok stages ∧
          stages = Pipeline.ofGroups (groupsOf first links) ∧
          Token.ReadAs (first.tokens ++ links.flatMap fun link => link.2.tokens)
            (stages.flatMap fun stage => stage.command.words)) ∧
      Token.lex "; |".toList = .ok [.separator .semi, .separator .pipe] ∧
      Pipeline.split "; |".toList = .error (.noCommand "; |".toList) := by
  intro line tokens
  have lexed : Token.lex line = .ok tokens := by rfl
  have lexedOther : Token.lex "; |".toList = .ok [.separator .semi, .separator .pipe] := by rfl
  obtain ⟨runs, -⟩ := stages_are_runs_between_cuts lexed
  obtain ⟨-, noCommand⟩ := stages_are_runs_between_cuts lexedOther
  exact ⟨lexed, by decide +kernel, runs ⟨.backslash, by decide, by simp⟩, lexedOther,
    noCommand [.semi, .pipe] rfl (by decide)⟩

end Errand.Shell
