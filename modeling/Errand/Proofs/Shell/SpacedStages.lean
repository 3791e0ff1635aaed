/-
# The stages of a line with one more space

A space behind a separator leaves the tokens of the line alone but for one pair of pipes, and the
stages follow the tokens. Where the pair is taken along, a cut and the word before it turn into one
longer word, so the stages differ however the line goes on.

A line that is one separator has no stages of its own. It is split plainly, where a separator is a
character like any other and a space behind it may divide a word.
-/
import Errand.Proofs.Shell.Comment
import Errand.Proofs.Shell.Escapes
import Errand.Proofs.Shell.Runs
import Errand.Proofs.Shell.Spacing

namespace Errand.Shell

/-! ## The items -/

namespace Item

/-- Whether an item ends a stage. -/
def isCut : Item → Bool
  | .word _ => false
  | .literal _ => false
  | .cut _ => true

/-- Groups lose no word. -/
theorem reads_of_group {items : List Item} {isFirst : Bool} {preceding : Option Separator}
    {collected : List Word} {stages : List Stage}
    (grouped : Pipeline.group isFirst preceding collected items = .ok stages) :
    ∃ words, List.Forall₂ Reads (items.filter fun item => !item.isCut) words ∧
      (stages.flatMap fun stage => stage.command.words) = collected ++ words := by
  have closed (isFirst : Bool) (preceding : Option Separator) (collected : List Word) :
      ((Pipeline.closeGroup isFirst preceding collected).flatMap fun stage => stage.command.words) =
        collected := by
    cases collected <;> simp [Pipeline.closeGroup]
  induction items generalizing isFirst preceding collected stages with
  | nil =>
      obtain rfl := Except.ok.inj grouped
      exact ⟨[], .nil, by rw [closed, List.append_nil]⟩
  | cons item items ih =>
      cases item with
      | word raw =>
          obtain ⟨word, unquoted, behind⟩ := Pipeline.exists_of_group_word grouped
          obtain ⟨words, reads, same⟩ := ih behind
          exact ⟨word :: words, .cons (.word unquoted) reads, by rw [same, List.append_assoc]; rfl⟩
      | literal text =>
          obtain ⟨words, reads, same⟩ := ih grouped
          exact ⟨_ :: words, .cons (.literal text) reads, by rw [same, List.append_assoc]; rfl⟩
      | cut s =>
          obtain ⟨later, behind, rfl⟩ := Pipeline.exists_of_group_cut grouped
          obtain ⟨words, reads, same⟩ := ih behind
          exact ⟨words, reads, by rw [List.flatMap_append, closed, same, List.nil_append]⟩

/-- The word of an item stands behind the words of the items in front. -/
theorem exists_of_reads {items later : List Item} {item : Item} {words : List Word}
    (reads : List.Forall₂ Reads ((items ++ item :: later).filter fun item => !item.isCut) words)
    (noCut : item.isCut = false) :
    ∃ word, Reads item word ∧
      (words.drop (items.filter fun item => !item.isCut).length).head? = some word := by
  rw [List.filter_append, List.filter_cons_of_pos (by simp [noCut])] at reads
  have here := List.forall₂_drop (items.filter fun item => !item.isCut).length reads
  rw [List.drop_left] at here
  obtain ⟨word, rest, isWord, -, same⟩ := List.forall₂_cons_left_iff.mp here
  exact ⟨word, isWord, by rw [same]; rfl⟩

/-- What tokens in front amount to does not depend on those behind them. -/
theorem exists_resolve_append (escapes : Nat) (earlier : List Token) :
    ∃ items waiting, ∀ later,
      resolve escapes (earlier ++ later) = items ++ resolve waiting later :=
  ⟨_, _, Resolving.append_resolve ⟨[], escapes⟩ earlier⟩

/-- Every token leaves something behind. -/
theorem resolve_ne_nil (escapes : Nat) {tokens : List Token} (some : tokens ≠ []) :
    resolve escapes tokens ≠ [] := by
  intro empty
  rcases tokens with - | ⟨raw | s | -, tokens⟩
  · exact some rfl
  · cases empty
  · cases escapes <;> cases empty
  · obtain ⟨item, items, same, -⟩ := exists_of_resolve_succ escapes tokens
    rw [resolve, same] at empty
    cases empty

/-- Only a single cut can be dropped from the end and leave nothing. -/
theorem eq_cut_of_dropFinalCut_eq_nil {items : List Item} (some : items ≠ [])
    (empty : dropFinalCut items = []) : ∃ s, items = [.cut s] := by
  match items with
  | [.cut s] => exact ⟨s, rfl⟩
  | [.word raw] | [.literal text] => cases empty
  | first :: second :: items => cases first <;> cases empty

/-- With another token besides a separator there are items other than a final cut. -/
theorem dropFinalCut_ne_nil {earlier later : List Token} {s : Separator}
    (others : earlier ++ later ≠ []) :
    dropFinalCut (ofTokens (earlier ++ .separator s :: later)) ≠ [] := by
  intro empty
  obtain ⟨t, single⟩ := eq_cut_of_dropFinalCut_eq_nil (resolve_ne_nil 0 (by simp)) empty
  rcases earlier with - | ⟨raw | r | -, earlier⟩
  · exact resolve_ne_nil 0 others (List.cons.inj single).2
  · cases single
  · exact resolve_ne_nil 0 (by simp) (List.cons.inj single).2
  · obtain ⟨item, items, same, noCut⟩ :=
      exists_of_resolve_succ 0 (earlier ++ .separator s :: later)
    exact noCut t (List.cons.inj (same.symm.trans single)).1

end Item

/-! ## The stages -/

/-- The fault as it is found in another line. -/
def ParseFault.inLine (line : Text) : ParseFault → ParseFault
  | .openQuote quote _ => .openQuote quote line
  | .unsplittable _ => .unsplittable line
  | .noCommand _ => .noCommand line

namespace Pipeline

/-- Two lines have the same stages, or they have none for the same reason. -/
def SplitAlike (line other : Text) : Prop := split other = (split line).mapError (·.inLine other)

/-- What the tokens of a line amount to can be grouped. -/
theorem exists_group_of_lex {line : Text} {tokens : List Token}
    (lexed : Token.lex line = .ok tokens) :
    ∃ stages, group true none [] (Item.ofTokens tokens) = .ok stages := by
  have unquotes := Token.exists_unquote_of_lex lexed
  obtain ⟨ending, scanned⟩ := Token.lex_eq_ok_iff.mp lexed
  obtain ⟨settled, isSettled, rfl⟩ := scanned.exists_settled
  obtain ⟨first, links, -, grouped⟩ := exists_cutInto isSettled ending fun raw inSettled =>
    unquotes raw (List.mem_append_left _ inSettled)
  exact ⟨_, grouped true none []⟩

/-- Lines with the same tokens are split alike, unless they are split plainly. -/
theorem splitAlike_of_lex {line other : Text} {tokens : List Token}
    (lexed : Token.lex line = .ok tokens) (lexedToo : Token.lex other = .ok tokens)
    (some : Item.dropFinalCut (Item.ofTokens tokens) ≠ []) : SplitAlike line other := by
  obtain ⟨stages, grouped⟩ := exists_group_of_lex lexed
  rw [← group_dropFinalCut] at grouped
  obtain ⟨item, items, read⟩ := List.exists_cons_of_ne_nil some
  rw [read] at grouped
  rw [SplitAlike, split, split, lexed, lexedToo]
  simp only [bind, Except.bind, read, grouped]
  cases stages <;> rfl

/-- Lines of the same words are one stage alike. -/
theorem single_alike {line other : Text}
    (same : Words.splitFrom .bare none other = Words.splitFrom .bare none line) :
    single other = (single line).mapError (·.inLine other) := by
  rw [single, single, Words.split, Words.split, same]
  cases Words.splitFrom .bare none line with
  | none => rfl
  | some words => cases words <;> rfl

/-- Where an escaped pipe and a pipe behind it are taken along together, the stages hold two pipes
in one word. -/
theorem not_splitAlike_of_takenAlong {line other : Text} {front later : List Token}
    (lexed : Token.lex line = .ok (front ++ .word ['\\', '|'] :: .separator .pipe :: later))
    (lexedToo : Token.lex other = .ok (front ++ .backslash :: .separator .or :: later)) :
    ¬ SplitAlike line other := by
  intro alike
  obtain ⟨items, waiting, resolved⟩ := Item.exists_resolve_append 0 front
  have itemsOf : Item.ofTokens (front ++ .word ['\\', '|'] :: .separator .pipe :: later) =
      items ++ .word ['\\', '|'] :: Item.resolve waiting (.separator .pipe :: later) := by
    rw [Item.ofTokens, resolved, Item.resolve]
  have itemsOfOther : Item.ofTokens (front ++ .backslash :: .separator .or :: later) =
      items ++ .literal ['|', '|'] :: Item.resolve waiting later := by
    rw [Item.ofTokens, resolved, Item.resolve, Item.resolve]
    rfl
  obtain ⟨stages, grouped⟩ := exists_group_of_lex lexed
  have splits : split line = .ok stages := by
    rw [← grouped]
    exact split_eq_group lexed (itemsOf ▸ List.mem_append_right _ List.mem_cons_self) (by simp)
  have splitsOther : split other = .ok stages := by
    rw [alike, splits]
    rfl
  rw [split_eq_group lexedToo (itemsOfOther ▸ List.mem_append_right _ List.mem_cons_self) (by simp)]
    at splitsOther
  obtain ⟨words, reads, same⟩ := Item.reads_of_group grouped
  obtain ⟨others, readsOther, sameOther⟩ := Item.reads_of_group splitsOther
  obtain rfl : words = others := same.symm.trans sameOther
  rw [itemsOf] at reads
  rw [itemsOfOther] at readsOther
  obtain ⟨word, isWord, here⟩ := Item.exists_of_reads reads rfl
  obtain ⟨wordToo, isWordToo, hereToo⟩ := Item.exists_of_reads readsOther rfl
  obtain rfl : word = wordToo := Option.some.inj (here.symm.trans hereToo)
  have onePipe : Word.unquote ['\\', '|'] = .ok (Word.ofText ['|']) := by decide +kernel
  cases isWord with
  | word unquotes =>
      obtain rfl := Except.ok.inj (onePipe.symm.trans unquotes)
      exact absurd isWordToo (by rintro ⟨⟩)

end Pipeline

/-! ## Lone separators -/

/-- Only blanks are passed over before a token. -/
theorem Token.isBlank_of_behind {token : Token} {before rest : Text}
    (placed : behind [token] (before ++ (token.source ++ rest)) = rest) :
    ∀ c ∈ before, isBlank c = true := by
  rw [behind, behind] at placed
  induction before with
  | nil => exact List.forall_mem_nil _
  | cons c before ih =>
      rw [List.cons_append] at placed
      by_cases white : isBlank c = true
      · rw [List.dropWhile_cons_of_pos white] at placed
        exact List.forall_mem_cons.mpr ⟨white, ih placed⟩
      · rw [List.dropWhile_cons_of_neg white] at placed
        have length := congrArg List.length placed
        simp at length
        omega

/-- Behind a separator a space divides no word if nothing or a gap is next. -/
theorem Words.splitFrom_glyph_space {before rest : Text} {s : Separator}
    (blanks : ∀ c ∈ before, isBlank c = true) (ends : ∀ c ∈ rest.head?, isGap c = true) :
    splitFrom .bare none (before ++ (s.glyph ++ ' ' :: rest)) =
      splitFrom .bare none (before ++ (s.glyph ++ rest)) := by
  have parts : ∀ c ∈ before ++ s.glyph, Token.Parts c := by
    have ofGlyph : ∀ c ∈ s.glyph, Token.Parts c := by
      cases s <;> simp [Separator.glyph, Token.Parts]
    exact List.forall_mem_append.mpr ⟨fun c member => .inl (blanks c member), ofGlyph⟩
  obtain ⟨words, word, splits, -⟩ := exists_splitFrom_append parts
  have space : isGap ' ' = true := by decide
  rw [← List.append_assoc, ← List.append_assoc, splits, splits, splitFrom_gap space]
  cases rest with
  | nil => simp [splitFrom, close]
  | cons c rest =>
      rw [splitFrom_gap (ends c rfl), splitFrom_gap (ends c rfl)]
      cases splitFrom .bare none rest <;> simp [close]

/-- A space right behind a separator that is not escaped changes nothing on a line with another
token, unless the separator is a pipe right behind an escaped pipe: then it changes the stages. A
line that is one separator is split as before if no more than a gap is next to the separator. -/
theorem space_behind_separator_matters_iff {line : Text} {earlier later : List Token}
    {s : Separator} (lexed : Token.lex line = .ok (earlier ++ .separator s :: later))
    (unescaped : earlier.getLast? ≠ some .backslash) :
    ∃ before rest, line = before ++ (s.glyph ++ rest) ∧
      Token.behind (earlier ++ [.separator s]) line = rest ∧
      (earlier ++ later ≠ [] →
        (Pipeline.SplitAlike line (before ++ (s.glyph ++ ' ' :: rest)) ↔
          ¬ (s = .pipe ∧ earlier.getLast? = some (.word ['\\', '|'])))) ∧
      (earlier ++ later = [] → (∀ c ∈ rest.head?, Words.isGap c = true) →
        Pipeline.SplitAlike line (before ++ (s.glyph ++ ' ' :: rest))) := by
  obtain ⟨ending, scanned⟩ := Token.lex_eq_ok_iff.mp lexed
  obtain ⟨before, rest, rfl, spacing⟩ := scanned.exists_spacing (.none line) rfl unescaped
  refine ⟨before, rest, rfl, spacing.placed, fun others => ?_, fun alone ends => ?_⟩
  · by_cases along : Token.TakenAlong earlier s
    · obtain rfl : s = .pipe := along.1
      obtain ⟨front, rfl⟩ := List.getLast?_eq_some_iff.mp along.2
      have some : before ≠ [] := fun empty => by simpa [Token.close] using (spacing.here empty).2
      have taken := spacing.taken along some
      rw [List.dropLast_concat] at taken
      rw [← List.append_cons] at lexed
      have differ := Pipeline.not_splitAlike_of_takenAlong lexed
        (Token.lex_eq_ok_iff.mpr ⟨ending, taken⟩)
      exact iff_of_false differ fun spared => spared along
    · have lexedToo :=
        Token.lex_eq_ok_iff.mpr ⟨ending, spacing.spared fun taken => absurd taken along⟩
      have alike := Pipeline.splitAlike_of_lex lexed lexedToo (Item.dropFinalCut_ne_nil others)
      exact iff_of_true alike along
  · obtain ⟨rfl, rfl⟩ := List.append_eq_nil_iff.mp alone
    have lexedToo := Token.lex_eq_ok_iff.mpr ⟨ending, spacing.spared fun taken => by cases taken.2⟩
    have blanks := Token.isBlank_of_behind spacing.placed
    rw [Pipeline.SplitAlike, Pipeline.split_eq_single lexed rfl,
      Pipeline.split_eq_single lexedToo rfl]
    exact Pipeline.single_alike (Words.splitFrom_glyph_space blanks ends)

/-- A space behind the pipe between two commands. -/
theorem space_behind_pipe_is_idle :
    let earlier : List Token := [.word "ls".toList]
    Token.lex "ls|wc".toList = .ok (earlier ++ .separator .pipe :: [.word "wc".toList]) ∧
      earlier.getLast? ≠ some .backslash ∧ Pipeline.SplitAlike "ls|wc".toList "ls| wc".toList := by
  intro earlier
  have lexed : Token.lex "ls|wc".toList =
      .ok (earlier ++ .separator .pipe :: [.word "wc".toList]) := by rfl
  have unescaped : earlier.getLast? ≠ some .backslash := by decide
  obtain ⟨before, rest, whole, placed, inCompany, -⟩ :=
    space_behind_separator_matters_iff lexed unescaped
  obtain rfl : "wc".toList = rest := placed
  obtain rfl : "ls".toList = before := List.append_cancel_right whole
  exact ⟨lexed, unescaped, (inCompany (by decide)).mpr (by decide)⟩

/-- A space behind an escaped pipe and a pipe makes one word of the two, and one behind a lone
separator may divide a word. -/
theorem space_behind_separator_matters :
    (∃ earlier later, Token.lex "\\||x".toList = .ok (earlier ++ .separator .pipe :: later) ∧
      earlier.getLast? ≠ some .backslash ∧
      Token.behind (earlier ++ [.separator .pipe]) "\\||x".toList = ['x'] ∧
      ¬ Pipeline.SplitAlike "\\||x".toList "\\|| x".toList) ∧
    ∃ earlier later, Token.lex ";\u00a0".toList = .ok (earlier ++ .separator .semi :: later) ∧
      earlier.getLast? ≠ some .backslash ∧
      Token.behind (earlier ++ [.separator .semi]) ";\u00a0".toList = ['\u00a0'] ∧
      ¬ Pipeline.SplitAlike ";\u00a0".toList "; \u00a0".toList := by
  constructor
  · refine ⟨[.word "\\|".toList], [.word ['x']], by rfl, by decide, by decide, ?_⟩
    rw [Pipeline.SplitAlike]
    decide +kernel
  · refine ⟨[], [], by rfl, by decide, by decide, ?_⟩
    rw [Pipeline.SplitAlike]
    decide +kernel

end Errand.Shell
