/-
# A line and its tokens

Lexing takes a line apart and throws only blanks and a comment away. The line is its tokens as they
were written, one behind the other, with gaps between them that are blanks outside quotes, and with
a comment behind them if a `#` stands where a word would begin. Nothing is taken twice and nothing
changes its place.

A word is as long as it can be. It goes on through quotes and behind backslashes, and ends before
the first blank or separator outside. So no word has one of these in it, and two words never touch.
-/
import Errand.Proofs.Shell.Guarding
import Errand.Proofs.Shell.Place

namespace Errand.Shell

/-! ## Whole words -/

/-- A character outside quotes that neither is a blank nor begins a separator with the text behind
it. -/
structure GoesOn (c : Char) (rest : Text) : Prop where
  solid : isBlank c = false
  uncut : c ≠ '|' ∧ c ≠ ';'
  single : ¬ (c = '&' ∧ rest.head? = some '&')

/-- What goes on before a text goes on before its beginning. -/
theorem GoesOn.of_append {c : Char} {piece rest : Text} (goesOn : GoesOn c (piece ++ rest)) :
    GoesOn c piece := by
  refine ⟨goesOn.solid, goesOn.uncut, fun ⟨ampersand, again⟩ => goesOn.single ⟨ampersand, ?_⟩⟩
  obtain ⟨further, rfl⟩ := List.head?_eq_some_iff.mp again
  rfl

/-- A character of a word begins no separator. -/
theorem Token.IsPlain.goesOn {c : Char} {rest : Text} (isPlain : Token.IsPlain c rest) :
    GoesOn c rest where
  solid := isPlain.solid
  uncut := isPlain.noGlyph
  single := by
    rintro ⟨rfl, again⟩
    exact isPlain.single again

/-- From a guard on, no unguarded character of a piece of a line ends the word. The line goes on
with `rest`. -/
def Guard.Uncut (guard : Guard) (piece rest : Text) : Prop :=
  ∀ before c after, piece = before ++ c :: after → guard.behind before = .bare →
    GoesOn c (after ++ rest)

/-- A raw word that is neither empty nor open at its end, and that nothing outside quotes would
have ended before. -/
structure IsWhole (raw : Text) : Prop where
  nonempty : raw ≠ []
  closed : Guard.bare.behind raw = .bare
  uncut : Guard.bare.Uncut raw []

namespace Guard

variable {guard : Guard}

theorem uncut_nil (rest : Text) : guard.Uncut [] rest := by
  intro before c after split
  cases before <;> cases split

theorem uncut_cons {c : Char} {piece rest : Text} :
    guard.Uncut (c :: piece) rest ↔
      (guard = .bare → GoesOn c (piece ++ rest)) ∧ (guard.next c).Uncut piece rest := by
  constructor
  · intro uncut
    refine ⟨uncut [] c piece rfl, ?_⟩
    rintro before d after rfl
    exact uncut (c :: before) d after rfl
  · rintro ⟨here, behind⟩ before d after split
    cases before with
    | nil =>
        obtain ⟨rfl, rfl⟩ := List.cons.inj split
        exact here
    | cons first before =>
        obtain ⟨rfl, rfl⟩ := List.cons.inj split
        exact behind before d after rfl

theorem uncut_singleton {c : Char} {rest : Text} :
    guard.Uncut [c] rest ↔ (guard = .bare → GoesOn c rest) := by
  rw [uncut_cons, List.nil_append, and_iff_left (uncut_nil rest)]

/-- A guarded character ends no word. -/
theorem uncut_of_guarded (guarded : guard ≠ .bare) (c : Char) (rest : Text) :
    guard.Uncut [c] rest :=
  uncut_singleton.mpr fun bare => absurd bare guarded

theorem uncut_append {piece other rest : Text} :
    guard.Uncut (piece ++ other) rest ↔
      guard.Uncut piece (other ++ rest) ∧ (guard.behind piece).Uncut other rest := by
  induction piece generalizing guard with
  | nil => simp [uncut_nil]
  | cons c piece ih =>
      rw [List.cons_append, uncut_cons, uncut_cons, ih, List.append_assoc, and_assoc]
      rfl

end Guard

/-- What the scan holds of a word that has begun, with the rest of the line still to read. -/
structure SoFar (quoting : Quoting) (begun : Option Text) (rest : Text) : Prop where
  nonempty : begun ≠ some []
  guarded : Guard.bare.behind (begun.getD []) = quoting.guard
  uncut : Guard.bare.Uncut (begun.getD []) rest

namespace SoFar

variable {quoting later : Quoting} {begun : Option Text} {rest : Text}

theorem none (rest : Text) : SoFar .bare none rest where
  nonempty := (Option.some_ne_none []).symm
  guarded := rfl
  uncut := Guard.uncut_nil rest

/-- A piece that ends no word is taken into the word. -/
theorem extend {piece : Text} (soFar : SoFar quoting begun (piece ++ rest)) (some : piece ≠ [])
    (leads : quoting.guard.behind piece = later.guard) (uncut : quoting.guard.Uncut piece rest) :
    SoFar later (Token.extend begun piece) rest where
  nonempty := by simp [Token.extend, some]
  guarded := by rw [Token.extend, Option.getD_some, Guard.behind_append, soFar.guarded, leads]
  uncut := by
    rw [Token.extend, Option.getD_some, Guard.uncut_append, soFar.guarded]
    exact ⟨soFar.uncut, uncut⟩

/-- A word that ends outside quotes is whole. -/
theorem isWhole (soFar : SoFar .bare begun rest) :
    ∀ raw, .word raw ∈ Token.close begun → IsWhole raw := by
  intro raw member
  cases begun with
  | none => cases member
  | some begun =>
      cases List.mem_singleton.mp member
      obtain ⟨nonempty, guarded, uncut⟩ := soFar
      refine ⟨fun empty => nonempty (congrArg some empty), guarded, ?_⟩
      intro before c after split bare
      rw [List.append_nil]
      exact (uncut before c after split bare).of_append

end SoFar

/-- Every word of a line is whole. -/
theorem Token.isWhole_of_scanned {quoting : Quoting} {begun : Option Text} {text : Text}
    {tokens : List Token} {ending : LineEnd} (scanned : Scanned quoting begun text tokens ending)
    (soFar : SoFar quoting begun text) : ∀ raw, .word raw ∈ tokens → IsWhole raw := by
  have mark {c : Char} {rest : Text} (noBlank : isBlank c = false)
      (noGlyph : c ≠ '|' ∧ c ≠ ';' ∧ c ≠ '&') : GoesOn c rest :=
    ⟨noBlank, ⟨noGlyph.1, noGlyph.2.1⟩, fun both => noGlyph.2.2 both.1⟩
  induction scanned with
  | finish begun => exact soFar.isWhole
  | comment rest => exact fun raw member => absurd member List.not_mem_nil
  | blank white later ih =>
      intro raw member
      rcases List.mem_append.mp member with closed | behind
      · exact soFar.isWhole raw closed
      · exact ih (.none _) raw behind
  | glyph starts later ih =>
      intro raw member
      rcases List.mem_append.mp member with closed | behind
      · exact soFar.isWhole raw closed
      · exact ih (.none _) raw (by simpa using behind)
  | lastBackslash begun =>
      intro raw member
      rcases List.mem_append.mp member with closed | behind
      · exact soFar.isWhole raw closed
      · simp at behind
  | escapedGlyph ends later ih =>
      intro raw member
      exact ih (.none _) raw (by simpa using member)
  | @escaped c begun rest tokens ending bound later ih =>
      refine ih (soFar.extend (List.cons_ne_nil _ _) rfl (Guard.uncut_cons.mpr ⟨fun _ => ?_, ?_⟩))
      · exact mark (by decide) (by decide)
      · exact Guard.uncut_of_guarded (by decide) _ _
  | plain isPlain goesOn later ih =>
      refine ih (soFar.extend (List.cons_ne_nil _ _) ?_ (Guard.uncut_singleton.mpr fun _ => ?_))
      · show Guard.bare.next _ = .bare
        rw [Guard.next, if_neg isPlain.unquoting.1, if_neg isPlain.unquoting.2,
          if_neg isPlain.unescaping]
      · exact isPlain.goesOn
  | openSingle later ih | openDouble later ih =>
      refine ih (soFar.extend (List.cons_ne_nil _ _) rfl (Guard.uncut_singleton.mpr fun _ => ?_))
      exact mark (by decide) (by decide)
  | closeSingle later ih | closeDouble later ih =>
      exact ih (soFar.extend (List.cons_ne_nil _ _) rfl (Guard.uncut_of_guarded (by decide) _ _))
  | inSingle other later ih =>
      refine ih (soFar.extend (List.cons_ne_nil _ _) ?_ (Guard.uncut_of_guarded (by decide) _ _))
      exact if_neg other
  | inDouble other later ih =>
      refine ih (soFar.extend (List.cons_ne_nil _ _) ?_ (Guard.uncut_of_guarded (by decide) _ _))
      show Guard.double.next _ = .double
      rw [Guard.next, if_neg other.1, if_neg other.2]
  | escapedInDouble later ih =>
      refine ih (soFar.extend (List.cons_ne_nil _ _) rfl ?_)
      refine Guard.uncut_cons.mpr ⟨fun bare => ?_, ?_⟩
      · exact absurd bare (by decide)
      · exact Guard.uncut_of_guarded (by decide) _ _

/-! ## Pieces of a line -/

/-- A token and what stands between it and the token before. -/
structure Piece where
  gap : Text
  token : Token
  deriving DecidableEq, Repr

/-- A piece as it stands in the line. -/
def Piece.write (piece : Piece) : Text := piece.gap ++ piece.token.source

/-- Whether a token is a word. -/
def Token.isWord : Token → Bool
  | .word _ => true
  | .separator _ => false
  | .backslash => false

/-- From a place on a text is blanks outside quotes and nothing else. -/
def Place.IsGap : Place → Text → Prop :=
  Throughout fun place c => place.isBare = true ∧ isBlank c = true

/-- From a place on these pieces, a last gap and a comment may stand in a line one behind the
other. `touches` says that a word stands right in front of the place. The gaps are gaps, two words
do not touch, and a comment begins with a `#` where a word would begin. -/
inductive Spaced : Bool → Place → List Piece → Text → Text → Prop
  | last {touches : Bool} {place : Place} {gap comment : Text} (isGap : place.IsGap gap)
      (hides : comment ≠ [] → place.behind gap = .gap ∧ comment.head? = some '#') :
      Spaced touches place [] gap comment
  | piece {touches : Bool} {place : Place} {piece : Piece} {pieces : List Piece}
      {gap comment : Text} (isGap : place.IsGap piece.gap)
      (apart : touches = true → piece.token.isWord = true → piece.gap ≠ [])
      (later : Spaced piece.token.isWord (place.behind piece.write) pieces gap comment) :
      Spaced touches place (piece :: pieces) gap comment

/-- From a place on a text is made of these tokens and of what may stand between and behind
them. -/
def Consists (touches : Bool) (place : Place) (text : Text) (tokens : List Token) : Prop :=
  ∃ pieces gap comment, pieces.map Piece.token = tokens ∧
    text = pieces.flatMap Piece.write ++ gap ++ comment ∧ Spaced touches place pieces gap comment

namespace Consists

variable {touches : Bool} {place : Place} {text : Text} {tokens : List Token}

theorem nil : Consists touches place [] [] :=
  ⟨[], [], [], rfl, rfl, .last Place.throughout_nil fun some => absurd rfl some⟩

theorem comment (rest : Text) : Consists touches .gap ('#' :: rest) [] :=
  ⟨[], [], '#' :: rest, rfl, rfl, .last Place.throughout_nil fun _ => ⟨rfl, rfl⟩⟩

/-- What may stand behind a word may stand anywhere. -/
theorem apart (consists : Consists true place text tokens) : Consists false place text tokens := by
  obtain ⟨pieces, gap, comment, read, written, spaced⟩ := consists
  refine ⟨pieces, gap, comment, read, written, ?_⟩
  cases spaced with
  | last isGap hides => exact .last isGap hides
  | piece isGap apart later =>
      exact .piece isGap (fun touches => absurd touches Bool.false_ne_true) later

/-- A blank in front makes the first gap longer, so what follows may stand behind a word. -/
theorem blank {c : Char} (bare : place.isBare = true) (white : isBlank c = true)
    (consists : Consists touches (place.next c) text tokens) :
    Consists true place (c :: text) tokens := by
  obtain ⟨pieces, gap, comment, rfl, rfl, spaced⟩ := consists
  have longer {first : Text} (isGap : (place.next c).IsGap first) : place.IsGap (c :: first) :=
    Place.throughout_cons.mpr ⟨⟨bare, white⟩, isGap⟩
  cases spaced with
  | last isGap hides => exact ⟨[], c :: gap, comment, rfl, rfl, .last (longer isGap) hides⟩
  | @piece _ _ piece pieces _ _ isGap apart later =>
      exact ⟨⟨c :: piece.gap, piece.token⟩ :: pieces, gap, comment, rfl, rfl,
        .piece (longer isGap) (fun _ _ => List.cons_ne_nil _ _) later⟩

/-- A token in front. -/
theorem token (token : Token) (free : touches = true → token.isWord = false)
    (consists : Consists token.isWord (place.behind token.source) text tokens) :
    Consists touches place (token.source ++ text) (token :: tokens) := by
  obtain ⟨pieces, gap, comment, rfl, rfl, spaced⟩ := consists
  refine ⟨⟨[], token⟩ :: pieces, gap, comment, rfl, ?_, .piece Place.throughout_nil ?_ spaced⟩
  · simp [Piece.write]
  · intro behindWord isWord
    rw [free behindWord] at isWord
    cases isWord

/-- What is taken into the word changes neither the text nor where the rest of it stands. -/
theorem taken {quoting : Quoting} {begun : Option Text} {piece : Text}
    (consists : Place.Fits (place.behind ((Token.extend begun piece).getD [])) quoting
      (Token.extend begun piece) text →
        Consists false place ((Token.extend begun piece).getD [] ++ text) tokens)
    (fits : Place.Fits ((place.behind (begun.getD [])).behind piece) quoting
      (Token.extend begun piece) text) :
    Consists false place (begun.getD [] ++ (piece ++ text)) tokens := by
  rw [← List.append_assoc]
  exact consists (by rwa [Token.extend, Option.getD_some, Place.behind_append])

/-- The word that has begun in front, if one has. -/
theorem close (begun : Option Text)
    (consists : Consists true (place.behind (begun.getD [])) text tokens) :
    Consists false place (begun.getD [] ++ text) (Token.close begun ++ tokens) := by
  cases begun with
  | none => exact consists.apart
  | some raw => exact token (.word raw) (fun touches => absurd touches Bool.false_ne_true) consists

end Consists

/-- A text is made of the tokens that it is read as. -/
theorem Token.consists_of_scanned {quoting : Quoting} {begun : Option Text} {text : Text}
    {tokens : List Token} {ending : LineEnd} (scanned : Scanned quoting begun text tokens ending)
    {place : Place} (fits : Place.Fits (place.behind (begun.getD [])) quoting begun text) :
    Consists false place (begun.getD [] ++ text) tokens := by
  induction scanned generalizing place with
  | finish begun =>
      rw [← (close begun).append_nil]
      exact .close begun .nil
  | comment rest =>
      rw [Option.getD_none, Place.behind_nil] at fits
      cases fits with
      | gap => exact .comment rest
      | ended bare ends => cases ends
  | blank white later ih =>
      have behind : Consists false .gap _ _ := ih (.gap _)
      rw [← fits.next_blank white] at behind
      exact .close _ (behind.blank fits.isBare white)
  | @glyph s begun rest tokens ending starts later ih =>
      have behind : Consists false .gap rest tokens := ih (.gap rest)
      rw [← fits.behind_glyph] at behind
      exact .close begun (.token (.separator s) (fun _ => rfl) behind)
  | lastBackslash begun => exact .close begun (.token .backslash (fun _ => rfl) .nil)
  | @escapedGlyph s rest tokens ending ends later ih =>
      have behind : Consists false (place.behind ('\\' :: s.glyph)) rest tokens :=
        ih (.ended fits.behind_escapedGlyph ends)
      exact .token .backslash (fun _ => rfl) (.token (.separator s) (fun _ => rfl) behind)
  | escaped bound later ih => exact .taken ih fits.escaped
  | plain isPlain goesOn later ih => exact .taken ih (fits.plain isPlain goesOn)
  | openSingle later ih => exact .taken ih fits.openSingle
  | openDouble later ih => exact .taken ih fits.openDouble
  | closeSingle later ih => exact .taken ih fits.closeSingle
  | closeDouble later ih => exact .taken ih fits.closeDouble
  | inSingle other later ih => exact .taken ih (fits.inSingle other)
  | inDouble other later ih => exact .taken ih (fits.inDouble other)
  | escapedInDouble later ih => exact .taken ih fits.escapedInDouble

/-- A line cannot be read exactly if it ends inside quotes, and no comment has begun. What can be
read is made of its tokens and of the blanks and the comment between and behind them, and every
word among the tokens is whole. -/
theorem lexing_loses_nothing (line : Text) :
    ((∃ fault, Token.lex line = .error fault) ↔
        Place.atEnd line ∈ [.single, .double, .doubleEscape]) ∧
      ∀ tokens, Token.lex line = .ok tokens →
        Consists false .gap line tokens ∧ ∀ raw, .word raw ∈ tokens → IsWhole raw := by
  constructor
  · rw [Place.lex_eq_error_iff]
    cases Place.atEnd line <;> decide
  · intro tokens lexed
    obtain ⟨ending, scanned⟩ := Token.lex_eq_ok_iff.mp lexed
    exact ⟨Token.consists_of_scanned scanned (.gap line),
      Token.isWhole_of_scanned scanned (.none line)⟩

/-- Separators in quotes, behind a backslash in a word, and behind one that begins a word. -/
theorem lexing_loses_no_separator :
    let line := "a\\;'b |'  | \\&& c # d".toList
    let tokens : List Token :=
      [.word "a\\;'b |'".toList, .separator .pipe, .backslash, .separator .and, .word ['c']]
    Token.lex line = .ok tokens ∧ Consists false .gap line tokens ∧
      ∀ raw, .word raw ∈ tokens → IsWhole raw := by
  intro line tokens
  have lexed : Token.lex line = .ok tokens := by rfl
  exact ⟨lexed, (lexing_loses_nothing line).2 tokens lexed⟩

end Errand.Shell
