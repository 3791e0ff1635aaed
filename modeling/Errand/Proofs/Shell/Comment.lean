/-
# Comments at the end of a line

A `#` where a word would begin hides what stands behind it from the tokens of a line. So the
comment cannot matter as long as the stages are made of the tokens. They are not if the line
holds nothing but blanks and at most one separator: then the whole line is split once more,
plainly, and the comment with it. The plain splitter knows no separators, so a `#` right behind
one goes on with a word, and to it a comment ends with its own line.
-/
import Errand.Proofs.Shell.Agreement
import Errand.Proofs.Shell.Expansion
import Errand.Proofs.Shell.Joining
import Mathlib.Data.List.Induction

namespace Errand.Shell

namespace Place

/-- No backslash that begins a word stands right before a `||` at the end of a text. It would
take the separator along at the end of a line, and only half of it before a `#`. -/
def EndsUnescaped : Place → Text → Prop :=
  Everywhere fun place text => text = ['\\', '|', '|'] → place ≠ .gap

end Place

/-- A line behind which a word would begin: it is empty, or it ends behind a blank or a separator
outside quotes. -/
structure AwaitsWord (line : Text) : Prop where
  atGap : Place.atEnd line = .gap
  unescaped : Place.gap.EndsUnescaped line

/-- Only a line that ends with a backslash and `||` can end with a separator that is escaped. -/
theorem AwaitsWord.of_not_isSuffix {line : Text} (atGap : Place.atEnd line = .gap)
    (other : ¬ ['\\', '|', '|'] <:+ line) : AwaitsWord line :=
  ⟨atGap, fun before after split same => absurd ⟨before, by rw [split, same]⟩ other⟩

/-! ## The tokens -/

namespace Token

/-- A text that ends where a word would begin is read the same with a comment behind it. Only a
separator, or a backslash before one, looks at what stands behind it, and of the separators that a
backslash takes along only `||` leads to a gap at the end of the text. -/
theorem Scanned.append_comment {place : Place} {quoting : Quoting} {begun : Option Text}
    {text : Text} {tokens : List Token} {ending : LineEnd}
    (scanned : Scanned quoting begun text tokens ending) (fits : place.Fits quoting begun text)
    (atGap : place.behind text = .gap) (unescaped : place.EndsUnescaped text) (comment : Text) :
    Scanned quoting begun (text ++ '#' :: comment) tokens .comment := by
  have noGlyph : '#' ≠ '|' ∧ '#' ≠ '&' ∧ '#' ≠ ';' := by decide
  induction scanned generalizing place with
  | finish begun =>
      obtain rfl : place = .gap := atGap
      cases fits <;> exact .comment comment
  | comment rest =>
      have commented : place.behind ('#' :: rest) = .comment := by
        cases fits with
        | gap => exact Place.behind_comment rest
        | ended bare ends => cases ends
      rw [commented] at atGap
      cases atGap
  | blank white later ih =>
      rw [Place.behind_cons, fits.next_blank white] at atGap
      have behind := unescaped.of_cons
      rw [fits.next_blank white] at behind
      exact .blank white (ih (.gap _) atGap behind)
  | glyph starts later ih =>
      rw [fits.behind_glyph_append] at atGap
      have behind := unescaped.of_append
      rw [fits.behind_glyph] at behind
      rw [List.append_assoc]
      refine .glyph ?_ (ih (.gap _) atGap behind)
      rw [← List.append_assoc, Separator.atStart?_append _ comment noGlyph, starts]
  | lastBackslash begun =>
      rw [Place.behind_cons, fits.next_backslash] at atGap
      cases atGap
  | @escapedGlyph s rest tokens ending ends later ih =>
      rw [← List.cons_append] at atGap unescaped
      have behind := unescaped.of_append
      rw [Place.behind_append] at atGap
      rw [List.cons_append, List.append_assoc]
      refine .escapedGlyph ?_ (ih (.ended fits.behind_escapedGlyph ends) atGap behind)
      cases rest with
      | cons first rest => exact ends
      | nil =>
          rw [Place.behind_nil, Place.behind_cons, fits.next_backslash] at atGap
          cases s with
          | pipe | and | semi => cases atGap
          | or =>
              refine absurd ?_ (unescaped.here rfl)
              cases fits with
              | gap => rfl
              | ended bare ends => cases ends
  | escaped bound later ih =>
      refine .escaped (fun empty => ?_) (ih fits.escaped atGap unescaped.of_cons.of_cons)
      exact freeStanding_append_eq_false (Separator.atStart?_append (_ :: _) comment noGlyph)
        (bound empty)
  | plain isPlain goesOn later ih =>
      have uncut := (Separator.atStart?_append (_ :: _) comment noGlyph).trans isPlain.uncut
      exact .plain ⟨isPlain.solid, isPlain.unescaping, isPlain.unquoting, uncut⟩ goesOn
        (ih (fits.plain isPlain goesOn) atGap unescaped.of_cons)
  | openSingle later ih => exact .openSingle (ih fits.openSingle atGap unescaped.of_cons)
  | openDouble later ih => exact .openDouble (ih fits.openDouble atGap unescaped.of_cons)
  | closeSingle later ih => exact .closeSingle (ih fits.closeSingle atGap unescaped.of_cons)
  | closeDouble later ih => exact .closeDouble (ih fits.closeDouble atGap unescaped.of_cons)
  | inSingle other later ih =>
      exact .inSingle other (ih (fits.inSingle other) atGap unescaped.of_cons)
  | inDouble other later ih =>
      exact .inDouble other (ih (fits.inDouble other) atGap unescaped.of_cons)
  | escapedInDouble later ih =>
      exact .escapedInDouble (ih fits.escapedInDouble atGap unescaped.of_cons.of_cons)

/-- A word that has begun becomes a token. -/
theorem Scanned.exists_word {quoting : Quoting} {begun : Option Text} {text : Text}
    {tokens : List Token} {ending : LineEnd} (scanned : Scanned quoting begun text tokens ending)
    (some : begun.isSome = true) : ∃ raw, .word raw ∈ tokens := by
  induction scanned with
  | finish begun | blank _ _ _ | glyph _ _ _ | lastBackslash begun =>
      obtain ⟨raw, rfl⟩ := Option.isSome_iff_exists.mp some
      exact ⟨raw, List.mem_cons_self⟩
  | comment | escapedGlyph => cases some
  | escaped _ _ ih | plain _ _ _ ih | openSingle _ ih | openDouble _ ih | closeSingle _ ih
  | closeDouble _ ih | inSingle _ _ ih | inDouble _ _ ih | escapedInDouble _ ih => exact ih rfl

/-- A character that ends words and begins none: a blank or one of a separator. -/
def Parts (c : Char) : Prop := isBlank c = true ∨ c = '|' ∨ c = '&' ∨ c = ';'

theorem Parts.ne {c other : Char} (parts : Parts c) (solid : isBlank other = false)
    (noGlyph : other ≠ '|' ∧ other ≠ '&' ∧ other ≠ ';') : c ≠ other := by
  rintro rfl
  rcases parts with white | isPipe | isAmpersand | isSemi
  · exact absurd white (by simp [solid])
  · exact noGlyph.1 isPipe
  · exact noGlyph.2.1 isAmpersand
  · exact noGlyph.2.2 isSemi

/-- Where only separators are read there is nothing but blanks besides. -/
theorem Scanned.forall_parts {quoting : Quoting} {begun : Option Text} {text : Text}
    {tokens : List Token} {ending : LineEnd} (scanned : Scanned quoting begun text tokens ending)
    (bare : ending = .bare) (separators : ∀ token ∈ tokens, ∃ s, token = .separator s)
    (outside : quoting = .bare) : ∀ c ∈ text, Parts c := by
  have noWord {quoting : Quoting} {raw text : Text} {tokens : List Token} {ending : LineEnd}
      (begins : Scanned quoting (some raw) text tokens ending)
      (separators : ∀ token ∈ tokens, ∃ s, token = .separator s) : False := by
    obtain ⟨raw, member⟩ := begins.exists_word rfl
    obtain ⟨s, same⟩ := separators _ member
    cases same
  induction scanned with
  | finish begun => exact List.forall_mem_nil _
  | comment rest => cases bare
  | blank white later ih =>
      refine List.forall_mem_cons.mpr ⟨.inl white, ih bare (fun token member => ?_) rfl⟩
      exact separators token (List.mem_append_right _ member)
  | @glyph s begun rest tokens ending starts later ih =>
      have here : ∀ c ∈ s.glyph, Parts c := by
        cases s <;> simp [Separator.glyph, Parts]
      refine List.forall_mem_append.mpr ⟨here, ih bare (fun token member => ?_) rfl⟩
      exact separators token (List.mem_append_right _ (List.mem_cons_of_mem _ member))
  | lastBackslash begun => cases bare
  | escapedGlyph ends later ih =>
      obtain ⟨s, same⟩ := separators _ List.mem_cons_self
      cases same
  | escaped bound later | plain isPlain goesOn later | openSingle later | openDouble later =>
      exact (noWord later separators).elim
  | closeSingle | closeDouble | inSingle | inDouble | escapedInDouble => cases outside

/-- A line whose items are at most one cut holds nothing but blanks and separators. -/
theorem forall_parts_of_dropFinalCut {line : Text} {tokens : List Token}
    (scanned : Scanned .bare none line tokens .bare)
    (empty : Item.dropFinalCut (Item.ofTokens tokens) = []) : ∀ c ∈ line, Parts c := by
  refine scanned.forall_parts rfl (fun token member => ?_) rfl
  by_contra noSeparator
  obtain ⟨item, found, noCut⟩ := (scanned.settled (by decide)).exists_mem_resolve member
    (not_exists.mp noSeparator)
  have kept := Item.mem_dropFinalCut found noCut
  rw [← Item.ofTokens, empty] at kept
  cases kept

end Token

/-! ## The plain splitter -/

namespace Words

/-- Blanks and separators hold no comment and no quotes, so what is behind them is split with
the words before it in front, and with the last one open unless a gap comes last. -/
theorem exists_splitFrom_append {text : Text} (parts : ∀ c ∈ text, Token.Parts c) :
    ∃ (words : List Text) (word : Option Text),
      (∀ rest, splitFrom .bare none (text ++ rest) =
        (splitFrom .bare word rest).map (words ++ ·)) ∧
      (word = none ↔ ∀ c ∈ text.getLast?, isGap c = true) := by
  induction text using List.reverseRecOn with
  | nil =>
      refine ⟨[], none, fun rest => ?_, ?_⟩
      · rw [List.nil_append]
        cases splitFrom .bare none rest <;> rfl
      · simp
  | append_singleton earlier c ih =>
      obtain ⟨ofEarlier, ofLast⟩ := List.forall_mem_append.mp parts
      obtain ⟨words, word, splits, -⟩ := ih ofEarlier
      by_cases gap : isGap c = true
      · refine ⟨words ++ close word, none, fun rest => ?_, by simp [gap]⟩
        rw [List.append_assoc, List.singleton_append, splits, splitFrom_gap gap]
        cases splitFrom .bare none rest <;> simp
      · have here := ofLast c (List.mem_singleton.mpr rfl)
        have noHash : c ≠ '#' := here.ne (by decide) (by decide)
        have plain : c ≠ '\'' ∧ c ≠ '"' ∧ c ≠ '\\' :=
          ⟨here.ne (by decide) (by decide), here.ne (by decide) (by decide),
            here.ne (by decide) (by decide)⟩
        refine ⟨words, extend word [c], fun rest => ?_, by simp [gap, extend]⟩
        rw [List.append_assoc, List.singleton_append, splits,
          splitFrom_plain (by simpa using gap) (fun hash => absurd hash noHash) plain]

/-- A word that has begun only grows. -/
theorem exists_of_splitFrom_some {quoting : Quoting} {written : Text} {text : Text}
    {words : List Text} (splits : splitFrom quoting (some written) text = some words) :
    ∃ added more, words = (written ++ added) :: more := by
  have grows {written piece : Text}
      (further : ∃ added more, words = ((written ++ piece) ++ added) :: more) :
      ∃ added more, words = (written ++ added) :: more := by
    obtain ⟨added, more, rfl⟩ := further
    exact ⟨piece ++ added, more, by rw [List.append_assoc]⟩
  generalize begun : some written = word at splits
  fun_induction splitFrom quoting word text generalizing written with
  | case1 word =>
      obtain rfl := begun
      obtain rfl := Option.some.inj splits
      exact ⟨[], [], by rw [List.append_nil]; rfl⟩
  | case2 | case3 | case7 | case16 => cases splits
  | case4 _ _ ih | case6 _ _ ih | case9 _ _ _ _ ih => exact ih begun splits
  | case12 word c rest gap ih =>
      obtain rfl := begun
      obtain ⟨later, -, rfl⟩ := Option.map_eq_some_iff.mp splits
      exact ⟨[], later, by rw [List.append_nil]; rfl⟩
  | case13 word c rest _ hash ih =>
      obtain rfl := begun
      simp at hash
  | case5 _ _ _ _ ih | case8 _ _ _ _ _ ih | case10 _ _ _ _ _ _ ih | case11 _ _ _ _ _ ih
  | case14 _ _ _ _ ih | case15 _ _ _ _ _ ih | case17 _ _ _ _ _ _ _ ih
  | case18 _ _ _ _ _ _ _ _ ih =>
      obtain rfl := begun
      exact grows (ih rfl splits)

/-- Behind a gap a comment hides its own line; behind anything else it is no comment. -/
theorem splitFrom_hash (word : Option Text) (comment : Text) :
    splitFrom .bare word ('#' :: comment) =
      if word = none then splitFrom .bare none (skipLine comment)
      else splitFrom .bare (extend word ['#']) comment := by
  cases word with
  | none => exact splitFrom_comment
  | some written =>
      rw [if_neg (Option.some_ne_none written)]
      exact splitFrom_plain (by decide) (fun _ => Option.some_ne_none written) (by decide)

end Words

namespace Pipeline

/-- The words of a line that is split plainly, if there are any. -/
def plainWords (line : Text) : Option (List Text) :=
  (Words.splitFrom .bare none line).filter (· ≠ [])

theorem toOption_single (line : Text) :
    (single line).toOption =
      (plainWords line).map fun words => [⟨Command.ofTexts words, false⟩] := by
  rw [single, plainWords, ← Words.toOption_split]
  cases Words.split line with
  | error fault => rfl
  | ok words => cases words <;> rfl

/-- Two lines are the same plain command if they have the same words. -/
theorem toOption_single_eq_iff (line other : Text) :
    (single line).toOption = (single other).toOption ↔ plainWords line = plainWords other := by
  have injective : Function.Injective
      fun words => ([⟨Command.ofTexts words, false⟩] : Pipeline) := by
    intro words others same
    have args := congrArg (List.map Stage.args) same
    simpa [Stage.args] using args
  rw [toOption_single, toOption_single, (Option.map_injective injective).eq_iff]

/-- Behind blanks and separators a comment adds no word exactly if it stands behind a gap and the
lines behind its own add none. Lines that cannot be split add none where there is no word before
them: no command is found in either case. -/
theorem plainWords_append_comment_iff {line : Text} (parts : ∀ c ∈ line, Token.Parts c)
    (comment : Text) :
    plainWords (line ++ '#' :: comment) = plainWords line ↔
      (∀ c ∈ line.getLast?, Words.isGap c = true) ∧
        ((Words.split (Words.skipLine comment)).toOption = some [] ∨
          (Words.split (Words.skipLine comment)).toOption = none ∧
            (Words.split line).toOption = some []) := by
  obtain ⟨words, word, splits, gap⟩ := Words.exists_splitFrom_append parts
  have alone := splits []
  rw [List.append_nil, Words.splitFrom, Option.map_some] at alone
  rw [← gap, Words.toOption_split, Words.toOption_split, plainWords, plainWords, alone, splits,
    Words.splitFrom_hash]
  cases word with
  | none =>
      rw [if_pos rfl, Words.close, List.append_nil]
      cases hidden : Words.splitFrom .bare none (Words.skipLine comment) with
      | none => cases words <;> simp [Option.filter_some]
      | some others => cases words <;> cases others <;> simp [Option.filter_some]
  | some written =>
      rw [if_neg (Option.some_ne_none written), Words.close]
      cases goesOn : Words.splitFrom .bare (Words.extend (some written) ['#']) comment with
      | none => simp [Option.filter_some]
      | some others =>
          obtain ⟨added, more, rfl⟩ := Words.exists_of_splitFrom_some goesOn
          simp [Option.filter_some]

/-- With items of its own a line is split the same with and without a comment behind it. -/
theorem toOption_split_of_lex {line other : Text} {tokens : List Token}
    (lexed : Token.lex line = .ok tokens) (lexedToo : Token.lex other = .ok tokens)
    (some : Item.dropFinalCut (Item.ofTokens tokens) ≠ []) :
    (split line).toOption = (split other).toOption := by
  obtain ⟨item, items, read⟩ := List.exists_cons_of_ne_nil some
  rw [split, split, lexed, lexedToo]
  simp only [bind, Except.bind, read]
  cases group true none [] (item :: items) with
  | error fault => rfl
  | ok stages => cases stages <;> rfl

/-- Without items of its own a line is split plainly. -/
theorem split_eq_single {line : Text} {tokens : List Token} (lexed : Token.lex line = .ok tokens)
    (empty : Item.dropFinalCut (Item.ofTokens tokens) = []) : split line = single line := by
  rw [split, lexed]
  simp only [bind, Except.bind, empty]

end Pipeline

/-- A comment where a word would begin never changes what a line means that has items of its
own. Any other line is split plainly. There a comment changes nothing exactly if it stands behind
a gap and not right behind the separator, and the lines behind its own hold no word, or cannot be
split and the line in front has no word either. -/
theorem comment_is_inert_iff {line : Text} {tokens : List Token}
    (lexed : Token.lex line = .ok tokens) (awaits : AwaitsWord line) (comment : Text) :
    (Pipeline.split (line ++ '#' :: comment)).toOption = (Pipeline.split line).toOption ↔
      Item.dropFinalCut (Item.ofTokens tokens) ≠ [] ∨
        (∀ c ∈ line.getLast?, Words.isGap c = true) ∧
          ((Words.split (Words.skipLine comment)).toOption = some [] ∨
            (Words.split (Words.skipLine comment)).toOption = none ∧
              (Words.split line).toOption = some []) := by
  obtain ⟨ending, ended, scanned⟩ := Place.lineEnd?_atEnd lexed
  rw [awaits.atGap] at ended
  obtain rfl : Token.LineEnd.bare = ending := Option.some.inj ended
  have lexedToo : Token.lex (line ++ '#' :: comment) = .ok tokens :=
    Token.lex_eq_ok_iff.mpr
      ⟨_, scanned.append_comment (.gap line) awaits.atGap awaits.unescaped comment⟩
  by_cases empty : Item.dropFinalCut (Item.ofTokens tokens) = []
  · rw [Pipeline.split_eq_single lexed empty, Pipeline.split_eq_single lexedToo empty,
      Pipeline.toOption_single_eq_iff,
      Pipeline.plainWords_append_comment_iff (Token.forall_parts_of_dropFinalCut scanned empty)]
    simp [empty]
  · have same := Pipeline.toOption_split_of_lex lexedToo lexed empty
    exact ⟨fun _ => .inl empty, fun _ => same⟩

/-- Quotes, separators and a newline in a comment behind a command change nothing. -/
theorem comment_is_inert_behind_ls :
    let line := "ls; ".toList
    let comment := "it's | gone\nrm".toList
    AwaitsWord line ∧
      (Pipeline.split (line ++ '#' :: comment)).toOption = (Pipeline.split line).toOption := by
  intro line comment
  have awaits : AwaitsWord line := .of_not_isSuffix (by decide) (by decide)
  have lexed : Token.lex line = .ok [.word "ls".toList, .separator .semi] := by rfl
  exact ⟨awaits, (comment_is_inert_iff lexed awaits comment).mpr (.inl (by decide))⟩

/-- A comment behind a lone separator becomes part of a program's name, and a comment alone on
its line runs the next line. -/
theorem comment_is_not_inert :
    (AwaitsWord ";".toList ∧ Token.lex ";".toList = .ok [.separator .semi] ∧
      Pipeline.split ";".toList = .ok [⟨.ofTexts [";".toList], false⟩] ∧
      Pipeline.split ";#x".toList = .ok [⟨.ofTexts [";#x".toList], false⟩]) ∧
    AwaitsWord [] ∧ Token.lex [] = .ok [] ∧ Pipeline.split [] = .error (.noCommand []) ∧
      Pipeline.split "#x\nls".toList = .ok [⟨.ofTexts ["ls".toList], false⟩] := by
  refine ⟨⟨.of_not_isSuffix (by decide) (by decide), by rfl, ?_, ?_⟩,
    .of_not_isSuffix (by decide) (by decide), by rfl, ?_, ?_⟩ <;> decide +kernel

end Errand.Shell
