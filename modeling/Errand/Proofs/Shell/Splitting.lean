/-
# From items to stages

The steps of splitting a line one by one, for callers that know what a line is made of: which
tokens can be resolved apart from those behind them, how the cut at the end is found, and that
the groups of the items are the stages of the line. Items on either side of a cut are grouped
apart from each other, and a cut at the end adds nothing.
-/
import Errand.Shell.Pipeline
import Mathlib.Data.List.Forall2

namespace Errand.Shell

namespace Item

/-- A final cut is found in the last part of items, if that is not empty. -/
theorem dropFinalCut_append (earlier : List Item) {later : List Item} (nonempty : later ≠ []) :
    dropFinalCut (earlier ++ later) = earlier ++ dropFinalCut later := by
  induction earlier with
  | nil => rfl
  | cons item earlier ih =>
      rw [List.cons_append, dropFinalCut, ih]
      · rfl
      · intro s _ atEnd
        exact nonempty (List.append_eq_nil_iff.mp atEnd).2

/-- Items that end without a cut stay as they are. -/
theorem dropFinalCut_concat (items : List Item) {item : Item} (noCut : ∀ s, item ≠ .cut s) :
    dropFinalCut (items ++ [item]) = items ++ [item] := by
  have kept : dropFinalCut [item] = [item] := by
    cases item with
    | word raw => rfl
    | literal text => rfl
    | cut s => exact absurd rfl (noCut s)
  rw [dropFinalCut_append items (List.cons_ne_nil item []), kept]

/-- No backslash among the tokens looks further than the next token for its separator. -/
inductive Settled : List Token → Prop
  | nil : Settled []
  | word (raw : Text) {tokens : List Token} (later : Settled tokens) :
      Settled (.word raw :: tokens)
  | separator (s : Separator) {tokens : List Token} (later : Settled tokens) :
      Settled (.separator s :: tokens)
  | escaped (s : Separator) {tokens : List Token} (later : Settled tokens) :
      Settled (.backslash :: .separator s :: tokens)

/-- Settled tokens leave no escape behind for the tokens after them. -/
theorem Settled.resolve_append {tokens : List Token} (settled : Settled tokens)
    (more : List Token) : resolve 0 (tokens ++ more) = resolve 0 tokens ++ resolve 0 more := by
  induction settled with
  | nil => rfl
  | word raw later ih => exact congrArg (Item.word raw :: ·) ih
  | separator s later ih => exact congrArg (Item.cut s :: ·) ih
  | escaped s later ih => exact congrArg (Item.literal s.glyph :: ·) ih

theorem Settled.append {tokens more : List Token} (settled : Settled tokens)
    (settledToo : Settled more) : Settled (tokens ++ more) := by
  induction settled with
  | nil => exact settledToo
  | word raw later ih => exact .word raw ih
  | separator s later ih => exact .separator s ih
  | escaped s later ih => exact .escaped s ih

theorem settled_close (begun : Option Text) : Settled (Token.close begun) := by
  cases begun with
  | none => exact .nil
  | some raw => exact .word raw .nil

/-- An item that is no cut, and the word it is in its stage. -/
inductive Reads : Item → Word → Prop
  | word {raw : Text} {word : Word} (unquotes : Word.unquote raw = .ok word) :
      Reads (.word raw) word
  | literal (text : Text) : Reads (.literal text) (Word.ofText text)

/-- Only a cut can be dropped from the end. -/
theorem mem_dropFinalCut {items : List Item} {item : Item} (member : item ∈ items)
    (noCut : ∀ s, item ≠ .cut s) : item ∈ dropFinalCut items := by
  obtain ⟨earlier, later, rfl⟩ := List.append_of_mem member
  cases later with
  | nil => rwa [dropFinalCut_concat earlier noCut]
  | cons next later =>
      rw [← List.singleton_append, ← List.append_assoc,
        dropFinalCut_append _ (List.cons_ne_nil next later)]
      simp

end Item

namespace Pipeline

variable {isFirst : Bool} {preceding : Option Separator} {collected : List Word}

theorem isEmpty_closeGroup_append (isFirst : Bool) (preceding : Option Separator)
    (collected : List Word) (stages : List Stage) :
    (closeGroup isFirst preceding collected ++ stages).isEmpty =
      (collected.isEmpty && stages.isEmpty) := by
  cases collected <;> rfl

/-- Items without a cut are further words of their stage. -/
theorem group_of_reads {items : List Item} {words : List Word}
    (reads : List.Forall₂ Item.Reads items words) :
    group isFirst preceding collected items =
      .ok (closeGroup isFirst preceding (collected ++ words)) := by
  induction reads generalizing collected with
  | nil => rw [group, List.append_nil]
  | @cons item word items words here behind ih =>
      rw [List.append_cons, ← ih]
      cases here with
      | word unquotes =>
          rw [group, unquotes]
          rfl
      | literal text => rw [group]

/-- Items before a cut and items behind it are grouped apart from each other. -/
theorem group_append_cut (items : List Item) (s : Separator) (more : List Item) :
    group isFirst preceding collected (items ++ .cut s :: more) = (do
      let stages ← group isFirst preceding collected items
      let later ← group (isFirst && stages.isEmpty) (some s) [] more
      return stages ++ later) := by
  induction items generalizing isFirst preceding collected with
  | nil =>
      have first := isEmpty_closeGroup_append isFirst preceding collected []
      rw [List.append_nil, List.isEmpty_nil, Bool.and_true] at first
      rw [List.nil_append, group, group]
      simp only [bind, Except.bind, first]
  | cons item items ih =>
      cases item with
      | word raw =>
          rw [List.cons_append, group, group]
          cases Word.unquote raw with
          | error fault => rfl
          | ok word => exact ih
      | literal text =>
          rw [List.cons_append, group, group]
          exact ih
      | cut t =>
          rw [List.cons_append, group, group, ih]
          cases group (isFirst && collected.isEmpty) (some t) [] items with
          | error fault => rfl
          | ok stages =>
              have first : (isFirst && (closeGroup isFirst preceding collected ++ stages).isEmpty) =
                  (isFirst && collected.isEmpty && stages.isEmpty) := by
                rw [isEmpty_closeGroup_append, Bool.and_assoc]
              simp only [bind, Except.bind, pure, Except.pure, first]
              cases group (isFirst && collected.isEmpty && stages.isEmpty) (some s) [] more with
              | error fault => rfl
              | ok later => exact congrArg Except.ok (List.append_assoc _ _ _).symm

/-- A cut at the end of the items makes no stage. -/
theorem group_dropFinalCut (items : List Item) :
    group isFirst preceding collected (Item.dropFinalCut items) =
      group isFirst preceding collected items := by
  rcases List.eq_nil_or_concat items with rfl | ⟨earlier, last, rfl⟩
  · rfl
  · rw [List.concat_eq_append]
    cases last with
    | cut s =>
        rw [Item.dropFinalCut_append _ (List.cons_ne_nil _ _), Item.dropFinalCut, List.append_nil,
          group_append_cut]
        cases group isFirst preceding collected earlier with
        | error fault => rfl
        | ok stages => exact congrArg Except.ok (List.append_nil stages).symm
    | word raw => rw [Item.dropFinalCut_concat]; simp
    | literal text => rw [Item.dropFinalCut_concat]; simp

/-- What a group with a word in it was made of. -/
theorem exists_of_group_word {raw : Text} {items : List Item} {stages : List Stage}
    (grouped : group isFirst preceding collected (.word raw :: items) = .ok stages) :
    ∃ word, Word.unquote raw = .ok word ∧
      group isFirst preceding (collected ++ [word]) items = .ok stages := by
  rw [group] at grouped
  cases unquoted : Word.unquote raw with
  | error fault =>
      rw [unquoted] at grouped
      cases grouped
  | ok word =>
      rw [unquoted] at grouped
      exact ⟨word, rfl, grouped⟩

/-- What the groups on either side of a cut were made of. -/
theorem exists_of_group_cut {s : Separator} {items : List Item} {stages : List Stage}
    (grouped : group isFirst preceding collected (.cut s :: items) = .ok stages) :
    ∃ later, group (isFirst && collected.isEmpty) (some s) [] items = .ok later ∧
      stages = closeGroup isFirst preceding collected ++ later := by
  rw [group] at grouped
  cases behind : group (isFirst && collected.isEmpty) (some s) [] items with
  | error fault =>
      rw [behind] at grouped
      cases grouped
  | ok later =>
      rw [behind] at grouped
      exact ⟨later, rfl, (Except.ok.inj grouped).symm⟩

/-- Only cuts make no stage. -/
theorem eq_cut_of_group_eq_nil {items : List Item}
    (empty : group isFirst preceding collected items = .ok []) :
    collected = [] ∧ ∀ item ∈ items, ∃ s, item = .cut s := by
  induction items generalizing isFirst preceding collected with
  | nil =>
      rw [group] at empty
      have collectedNone := isEmpty_closeGroup_append isFirst preceding collected []
      simpa [Except.ok.inj empty] using collectedNone.symm
  | cons item items ih =>
      cases item with
      | word raw =>
          obtain ⟨word, -, behind⟩ := exists_of_group_word empty
          exact absurd (ih behind).1 (by simp)
      | literal text => exact absurd (ih empty).1 (by simp)
      | cut s =>
          obtain ⟨later, behind, same⟩ := exists_of_group_cut empty
          obtain ⟨closedNone, rfl⟩ := List.append_eq_nil_iff.mp same.symm
          have collectedNone := isEmpty_closeGroup_append isFirst preceding collected []
          rw [closedNone, eq_comm] at collectedNone
          refine ⟨by simpa using collectedNone, ?_⟩
          exact List.forall_mem_cons.mpr ⟨⟨s, rfl⟩, (ih behind).2⟩

/-- The stages of a line that holds a word are the groups of its items. -/
theorem split_eq_group {line : Text} {tokens : List Token} {item : Item}
    (lexed : Token.lex line = .ok tokens) (member : item ∈ Item.ofTokens tokens)
    (noCut : ∀ s, item ≠ .cut s) : split line = group true none [] (Item.ofTokens tokens) := by
  have kept := Item.mem_dropFinalCut member noCut
  rw [split, lexed, ← group_dropFinalCut]
  cases read : Item.dropFinalCut (Item.ofTokens tokens) with
  | nil => rw [read] at kept; cases kept
  | cons first items =>
      rw [read] at kept
      cases grouped : group true none [] (first :: items) with
      | error fault => simp [bind, Except.bind, read, grouped]
      | ok stages =>
          cases stages with
          | nil =>
              obtain ⟨s, isCut⟩ := (eq_cut_of_group_eq_nil grouped).2 item kept
              exact absurd isCut (noCut s)
          | cons stage stages => simp [bind, Except.bind, read, grouped]

/-- A line whose items are the words of one command is one stage. -/
theorem split_of_reads {line : Text} {tokens : List Token} {words : List Word}
    (lexed : Token.lex line = .ok tokens) (some : Item.ofTokens tokens ≠ [])
    (uncut : ∀ s, .cut s ∉ Item.ofTokens tokens)
    (reads : List.Forall₂ Item.Reads (Item.ofTokens tokens) words) :
    split line = .ok [⟨⟨words⟩, false⟩] := by
  obtain ⟨item, member⟩ := List.exists_mem_of_ne_nil _ some
  have noCut : ∀ s, item ≠ .cut s := by
    rintro s rfl
    exact uncut s member
  have someWord : words ≠ [] := by
    rintro rfl
    rw [List.forall₂_nil_right_iff] at reads
    exact some reads
  rw [split_eq_group lexed member noCut, group_of_reads reads, List.nil_append, closeGroup,
    if_neg (by simpa using someWord)]
  rfl

/-- The first stage has no stage before it to read. -/
theorem readsPrevious_of_group {items : List Item} {stage : Stage} {stages : List Stage}
    (grouped : group true preceding collected items = .ok (stage :: stages)) :
    stage.readsPrevious = false := by
  induction items generalizing preceding collected with
  | nil =>
      rw [group, closeGroup] at grouped
      split at grouped
      · cases grouped
      · cases grouped
        rfl
  | cons item items ih =>
      cases item with
      | word raw =>
          obtain ⟨word, -, behind⟩ := exists_of_group_word grouped
          exact ih behind
      | literal text => exact ih grouped
      | cut s =>
          obtain ⟨later, behind, same⟩ := exists_of_group_cut grouped
          cases collected with
          | nil =>
              obtain rfl : stage :: stages = later := same
              exact ih behind
          | cons word words =>
              obtain ⟨rfl, -⟩ := List.cons.inj same
              rfl

/-- A stage is only closed once it holds a word. -/
theorem words_ne_nil_of_group {items : List Item} {stages : List Stage}
    (grouped : group isFirst preceding collected items = .ok stages) :
    ∀ stage ∈ stages, stage.command.words ≠ [] := by
  have closed (isFirst : Bool) (preceding : Option Separator) (collected : List Word) :
      ∀ stage ∈ closeGroup isFirst preceding collected, stage.command.words ≠ [] := by
    cases collected <;> simp [closeGroup]
  induction items generalizing isFirst preceding collected stages with
  | nil =>
      obtain rfl := Except.ok.inj grouped
      exact closed isFirst preceding collected
  | cons item items ih =>
      cases item with
      | word raw =>
          obtain ⟨word, -, behind⟩ := exists_of_group_word grouped
          exact ih behind
      | literal text => exact ih grouped
      | cut s =>
          obtain ⟨later, behind, rfl⟩ := exists_of_group_cut grouped
          intro stage member
          rcases List.mem_append.mp member with here | inLater
          · exact closed isFirst preceding collected stage here
          · exact ih behind stage inLater

/-- The stages of a line are either its groups or one stage of plainly split words. -/
theorem group_or_single_of_split {line : Text} {stages : List Stage}
    (splits : split line = .ok stages) :
    (∃ items, group true none [] items = .ok stages ∧ stages ≠ []) ∨
      ∃ words : List Text, words ≠ [] ∧ stages = [⟨Command.ofTexts words, false⟩] := by
  rw [split] at splits
  cases lexed : Token.lex line with
  | error fault => rw [lexed] at splits; cases splits
  | ok tokens =>
      rw [lexed] at splits
      cases read : Item.dropFinalCut (Item.ofTokens tokens) with
      | nil =>
          simp only [bind, Except.bind, read, single] at splits
          cases plainly : Words.split line with
          | error fault => rw [plainly] at splits; cases splits
          | ok words =>
              rw [plainly] at splits
              cases words with
              | nil => cases splits
              | cons word words =>
                  exact .inr ⟨_, List.cons_ne_nil word words, (Except.ok.inj splits).symm⟩
      | cons first items =>
          simp only [bind, Except.bind, read] at splits
          cases grouped : group true none [] (first :: items) with
          | error fault => rw [grouped] at splits; cases splits
          | ok found =>
              rw [grouped] at splits
              cases found with
              | nil => cases splits
              | cons stage found =>
                  obtain rfl := Except.ok.inj splits
                  exact .inl ⟨_, grouped, List.cons_ne_nil stage found⟩

/-- A line has a stage, and the first one reads no stage before it. -/
theorem exists_first_of_split {line : Text} {stages : List Stage}
    (splits : split line = .ok stages) :
    ∃ first later, stages = first :: later ∧ first.readsPrevious = false := by
  rcases group_or_single_of_split splits with ⟨items, grouped, nonempty⟩ | ⟨words, -, rfl⟩
  · obtain ⟨first, later, rfl⟩ := List.exists_cons_of_ne_nil nonempty
    exact ⟨first, later, rfl, readsPrevious_of_group grouped⟩
  · exact ⟨_, _, rfl, rfl⟩

/-- Every stage of a line has a program. -/
theorem words_ne_nil_of_split {line : Text} {stages : List Stage}
    (splits : split line = .ok stages) : ∀ stage ∈ stages, stage.command.words ≠ [] := by
  rcases group_or_single_of_split splits with ⟨items, grouped, -⟩ | ⟨words, some, rfl⟩
  · exact words_ne_nil_of_group grouped
  · simpa [Command.ofTexts] using some

end Pipeline

/-- The stages of a line are the groups of its items, if there are any. -/
theorem Pipeline.split_of_group {line : Text} {tokens : List Token} {item : Item}
    {items : List Item} {stage : Stage} {stages : List Stage}
    (lexed : Token.lex line = .ok tokens)
    (read : Item.dropFinalCut (Item.ofTokens tokens) = item :: items)
    (grouped : group true none [] (item :: items) = .ok (stage :: stages)) :
    split line = .ok (stage :: stages) := by
  rw [split, lexed]
  simp only [bind, Except.bind, read, grouped]

end Errand.Shell
