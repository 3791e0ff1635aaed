/-
# Trimmed lines

Blanks at either end of a line stand outside its words, so a trimmed line has the same tokens.
There is one exception: a backslash may escape the first blank of those at the end, which is part
of a word then. Trimming takes the blank away and leaves the backslash with nothing behind it.

So a line without a cut that is split plainly after it was trimmed gives the words of its one
stage, if its readers agree on what stands in it.
-/
import Errand.Proofs.Shell.Agreement
import Errand.Proofs.Shell.Joining
import Errand.Proofs.Text.Trimmed

namespace Errand.Shell

namespace Place

/-- Blanks where a word would begin lead nowhere else. -/
theorem behind_blanks {lead : Text} (blanks : ∀ c ∈ lead, isBlank c = true) :
    gap.behind lead = .gap := by
  induction lead with
  | nil => rfl
  | cons c lead ih =>
      obtain ⟨white, later⟩ := List.forall_mem_cons.mp blanks
      have here : Fits .gap .bare none (c :: lead) := .gap _
      rw [behind_cons, here.next_blank white]
      exact ih later

/-- What holds of every character of a line holds of every character of the trimmed line. -/
theorem Throughout.trim {may : Place → Char → Prop} {line : Text}
    (all : Throughout may .gap line) : Throughout may .gap line.trim := by
  obtain ⟨lead, trail, split, blankLead, -⟩ := line.exists_trim
  rw [split] at all
  have behind := all.of_append
  rw [behind_blanks blankLead] at behind
  exact behind.of_append_left

/-- Blanks inside quotes lead out of none. -/
theorem lineEnd?_behind_blanks {place : Place} {trail : Text} (quoted : place.lineEnd? = none)
    (blanks : ∀ c ∈ trail, isBlank c = true) : (place.behind trail).lineEnd? = none := by
  induction trail generalizing place with
  | nil => exact quoted
  | cons c trail ih =>
      obtain ⟨white, later⟩ := List.forall_mem_cons.mp blanks
      refine ih ?_ later
      cases place with
      | single => rw [next, if_neg (Token.ne_of_isBlank white (by decide))]; rfl
      | double =>
          rw [next, if_neg (Token.ne_of_isBlank white (by decide)),
            if_neg (Token.ne_of_isBlank white (by decide))]
          rfl
      | doubleEscape => rfl
      | gap | word | ampersand | escape | comment => cases quoted

end Place

namespace Token

variable {tokens : List Token} {lead trail : Text}

/-- Blanks before a line are no tokens. -/
theorem scan_append_blanks (blanks : ∀ c ∈ lead, isBlank c = true) (line : Text) :
    scan .bare none (lead ++ line) = scan .bare none line := by
  induction lead with
  | nil => rfl
  | cons c lead ih =>
      obtain ⟨white, later⟩ := List.forall_mem_cons.mp blanks
      rw [List.cons_append, scan_of_isBlank _ _ white, ih later]
      cases scan .bare none line <;> rfl

/-- Blanks alone are read as no tokens. -/
theorem scanned_blanks (blanks : ∀ c ∈ trail, isBlank c = true) :
    Scanned .bare none trail [] .bare := by
  induction trail with
  | nil => exact .finish none
  | cons c trail ih =>
      obtain ⟨white, later⟩ := List.forall_mem_cons.mp blanks
      exact .blank white (ih later)

/-- A comment is behind the first character of what it is read in. -/
theorem Scanned.ne_nil_of_comment {quoting : Quoting} {begun : Option Text} {text : Text}
    (scanned : Scanned quoting begun text tokens .comment) : text ≠ [] := by
  rintro rfl
  generalize empty : ([] : Text) = text at scanned
  cases scanned with
  | @glyph s => cases s <;> cases empty
  | _ => cases empty

/-- What stands behind a comment is part of it. A separator looks at one character behind it, which
is no further than the `#`. -/
theorem Scanned.append_to_comment {quoting : Quoting} {begun : Option Text} {text : Text}
    {ending : LineEnd} (scanned : Scanned quoting begun text tokens ending)
    (commented : ending = .comment) (more : Text) :
    Scanned quoting begun (text ++ more) tokens .comment := by
  have unchanged {first : Char} {text : Text} (someMore : text ≠ []) :
      Separator.atStart? (first :: text ++ more) = Separator.atStart? (first :: text) := by
    obtain ⟨second, text, rfl⟩ := List.exists_cons_of_ne_nil someMore
    rw [List.cons_append, List.cons_append, Separator.atStart?_cons_cons,
      Separator.atStart?_cons_cons]
  induction scanned with
  | finish | lastBackslash => cases commented
  | comment rest => exact .comment (rest ++ more)
  | blank white later ih => exact .blank white (ih commented)
  | @glyph s begun rest tokens ending starts later ih =>
      subst commented
      rw [List.append_assoc]
      refine .glyph ?_ (ih rfl)
      cases s with
      | pipe => exact (unchanged later.ne_nil_of_comment).trans starts
      | or | and | semi => rfl
  | @escapedGlyph s rest tokens ending ends later ih =>
      subst commented
      rw [List.cons_append, List.append_assoc]
      refine .escapedGlyph ?_ (ih rfl)
      obtain ⟨first, behind, rfl⟩ := List.exists_cons_of_ne_nil later.ne_nil_of_comment
      exact ends
  | escaped bound later ih =>
      subst commented
      refine .escaped (fun empty => ?_) (ih rfl)
      exact freeStanding_append_eq_false (unchanged later.ne_nil_of_comment) (bound empty)
  | plain isPlain goesOn later ih =>
      subst commented
      have uncut := (unchanged later.ne_nil_of_comment).trans isPlain.uncut
      exact .plain ⟨isPlain.solid, isPlain.unescaping, isPlain.unquoting, uncut⟩ goesOn (ih rfl)
  | openSingle _ ih => exact .openSingle (ih commented)
  | openDouble _ ih => exact .openDouble (ih commented)
  | closeSingle _ ih => exact .closeSingle (ih commented)
  | closeDouble _ ih => exact .closeDouble (ih commented)
  | inSingle other _ ih => exact .inSingle other (ih commented)
  | inDouble other _ ih => exact .inDouble other (ih commented)
  | escapedInDouble _ ih => exact .escapedInDouble (ih commented)

/-- A line that can be read is read the same without the blanks at its ends, unless the first
of those behind it is escaped. -/
theorem lex_trim {line : Text} (lexed : lex line = .ok tokens)
    (finished : Place.atEnd line.trim ≠ .escape) : lex line.trim = .ok tokens := by
  obtain ⟨lead, trail, split, blankLead, blankTrail⟩ := line.exists_trim
  have scans : scan .bare none (line.trim ++ trail) = .ok tokens := by
    obtain ⟨ending, scanned⟩ := lex_eq_ok_iff.mp lexed
    rw [split] at scanned
    rw [← scan_append_blanks blankLead]
    exact scanned.scan_eq_ok
  have toTrimmed {ending : LineEnd} {others : List Token}
      (scanned : Scanned .bare none line.trim others ending)
      (behind : ∃ ending, Scanned .bare none (line.trim ++ trail) others ending) :
      lex line.trim = .ok tokens := by
    obtain ⟨ending, behind⟩ := behind
    obtain rfl := Except.ok.inj (behind.scan_eq_ok.symm.trans scans)
    exact lex_eq_ok_iff.mpr ⟨_, scanned⟩
  cases lexedToo : lex line.trim with
  | error fault =>
      have quoted := Place.lex_eq_error_iff.mp ⟨fault, lexedToo⟩
      have quotedToo := Place.lineEnd?_behind_blanks quoted blankTrail
      rw [Place.atEnd, ← Place.behind_append] at quotedToo
      obtain ⟨found, fails⟩ := Place.lex_eq_error_iff.mpr quotedToo
      obtain ⟨quote, fails⟩ := exists_of_mapError_eq_error fails
      rw [scans] at fails
      cases fails
  | ok others =>
      rw [← lexedToo]
      obtain ⟨ending, ended, scanned⟩ := Place.lineEnd?_atEnd lexedToo
      cases ending with
      | bare =>
          refine toTrimmed scanned ?_
          cases trail with
          | nil => exact ⟨_, by rwa [List.append_nil]⟩
          | cons c trail =>
              obtain ⟨white, later⟩ := List.forall_mem_cons.mp blankTrail
              have behind := scanned.append_blank rfl white (scanned_blanks later)
              exact ⟨_, by rwa [List.append_nil] at behind⟩
      | comment => exact toTrimmed scanned ⟨_, scanned.append_to_comment rfl trail⟩
      | backslash =>
          cases place : Place.atEnd line.trim with
          | escape => exact absurd place finished
          | _ => rw [place] at ended; cases ended

end Token

/-! ## Both readings of a line -/

/-- Splitting a line plainly once it is trimmed misreads nothing in it. -/
structure TrimsPlainly (line : Text) : Prop where
  /-- No newline is escaped, which would join two lines. -/
  noJoin : Place.gap.Throughout (fun place c => place.isEscaped = true → c ≠ '\n') line
  /-- The trimmed line does not end with a backslash that is itself unescaped. -/
  finished : Place.atEnd line.trim ≠ .escape
  /-- Behind the line of a comment there is no word. -/
  quiet : ∀ before comment, line.trim = before ++ '#' :: comment → Place.atEnd before = .gap →
    Words.split (Words.skipLine comment) = .ok []

namespace TrimsPlainly

variable {line : Text}

/-- Without a newline no lines can be joined and a comment has no line behind its own. -/
theorem of_no_newline (oneLine : '\n' ∉ line) (finished : Place.atEnd line.trim ≠ .escape) :
    TrimsPlainly line where
  noJoin := by
    rintro before c after rfl escaped rfl
    exact oneLine (List.mem_append_right _ List.mem_cons_self)
  finished := finished
  quiet := by
    intro before comment split atGap
    obtain ⟨lead, trail, whole, -, -⟩ := line.exists_trim
    have noNewline : '\n' ∉ comment := by
      intro member
      rw [whole, split] at oneLine
      exact oneLine (by simp [member])
    have hidden : Words.skipLine comment = [] := by
      clear split
      induction comment with
      | nil => rfl
      | cons c comment ih =>
          rw [List.mem_cons, not_or] at noNewline
          rw [Words.skipLine, if_neg fun same => noNewline.1 same.symm, ih noNewline.2]
    rw [hidden, Words.split, Words.splitFrom]
    rfl

/-- With no other gaps than the plain splitter knows, the trimmed line holds only what both
readings take alike. -/
theorem common (plainly : TrimsPlainly line)
    (gaps : Place.gap.Throughout
      (fun place c => place.isBare = true → isBlank c = true → Words.isGap c = true) line) :
    Place.gap.Everywhere Place.Common line.trim := by
  intro before after split
  refine ⟨fun bare c first => ?_, fun escaped newline => ?_, fun atGap comment same => ?_⟩
  · obtain ⟨rest, rfl⟩ := List.head?_eq_some_iff.mp first
    exact gaps.trim before c rest split bare
  · obtain ⟨rest, rfl⟩ := List.head?_eq_some_iff.mp newline
    exact plainly.noJoin.trim before '\n' rest split escaped rfl
  · rw [same] at split
    rw [← Words.toOption_split, plainly.quiet before comment split atGap]
    rfl

/-- A line of words is one stage, whose arguments are the words of the trimmed line. -/
theorem exists_stage (plainly : TrimsPlainly line)
    (gaps : Place.gap.Throughout
      (fun place c => place.isBare = true → isBlank c = true → Words.isGap c = true) line)
    {tokens : List Token} (lexed : Token.lex line = .ok tokens)
    (some : Item.ofTokens tokens ≠ []) (uncut : ∀ s, .cut s ∉ Item.ofTokens tokens) :
    ∃ stage, Pipeline.split line = .ok [stage] ∧ Words.split line.trim = .ok stage.args := by
  have lexedToo := Token.lex_trim lexed plainly.finished
  obtain ⟨ending, ended, scanned⟩ := Place.lineEnd?_atEnd lexedToo
  have finished : ending ≠ .backslash := by
    rintro rfl
    cases place : Place.atEnd line.trim with
    | escape => exact plainly.finished place
    | _ => rw [place] at ended; cases ended
  obtain ⟨words, reads, splits⟩ := Token.exists_splitFrom_of_scanned scanned finished
    (.gap line.trim) (plainly.common gaps) .none uncut
  refine ⟨⟨⟨words⟩, false⟩, Pipeline.split_of_reads lexed some uncut reads, ?_⟩
  rw [Words.split, splits]
  rfl

end TrimsPlainly

end Errand.Shell
