/-
# A space behind a separator

The scan is at its start behind a separator, so a space there is one blank more and the tokens stay
as they are. Only what stands before the separator can look past it, and only a backslash does: it
takes a separator along that stands free. A space can free a separator, and for one of them the
backslash is already behind: in a backslash and two pipes the first pipe is escaped and the second
one cuts, but with a space behind them the two are one separator that stands free and cuts nothing.
-/
import Errand.Proofs.Shell.Joining

namespace Errand.Shell

/-! ## Looking ahead -/

/-- The next character tells with a first one which separator they begin. -/
theorem Separator.atStart?_cons_congr {c : Char} {text other : Text}
    (same : text.head? = other.head?) : atStart? (c :: text) = atStart? (c :: other) := by
  cases text with
  | nil =>
      cases other with
      | nil => rfl
      | cons d other => cases same
  | cons d text =>
      cases other with
      | nil => cases same
      | cons e other =>
          obtain rfl := Option.some.inj same
          rw [atStart?_cons_cons, atStart?_cons_cons]

/-- A separator is read the same before texts that begin with the same character. -/
theorem Separator.atStart?_glyph_congr {s : Separator} {text other : Text}
    (same : text.head? = other.head?) :
    atStart? (s.glyph ++ text) = atStart? (s.glyph ++ other) := by
  cases s with
  | or | and => rfl
  | pipe | semi => exact atStart?_cons_congr same

/-- A separator of two characters stands free if the word ends behind it, and one of a single
character if a blank is next. -/
theorem freeStanding_cons_cons {c d : Char} {text : Text} :
    freeStanding (c :: d :: text) = true ↔
      (c = '|' ∨ c = '&') ∧ d = c ∧ EndsWord text ∨ (c = '|' ∨ c = ';') ∧ isBlank d = true := by
  rw [freeStanding_iff]
  constructor
  · rintro ⟨s, rest, same, ends⟩
    cases s with
    | pipe =>
        obtain ⟨rfl, rfl⟩ := List.cons.inj same
        exact .inr ⟨.inl rfl, ends⟩
    | semi =>
        obtain ⟨rfl, rfl⟩ := List.cons.inj same
        exact .inr ⟨.inr rfl, ends⟩
    | or =>
        obtain ⟨rfl, more⟩ := List.cons.inj same
        obtain ⟨rfl, rfl⟩ := List.cons.inj more
        exact .inl ⟨.inl rfl, rfl, ends⟩
    | and =>
        obtain ⟨rfl, more⟩ := List.cons.inj same
        obtain ⟨rfl, rfl⟩ := List.cons.inj more
        exact .inl ⟨.inr rfl, rfl, ends⟩
  · rintro (⟨rfl | rfl, rfl, ends⟩ | ⟨rfl | rfl, white⟩)
    · exact ⟨.or, text, rfl, ends⟩
    · exact ⟨.and, text, rfl, ends⟩
    · exact ⟨.pipe, d :: text, rfl, white⟩
    · exact ⟨.semi, d :: text, rfl, white⟩

/-- The next character tells whether a word ends. -/
theorem EndsWord.congr_iff {text other : Text} (same : text.head? = other.head?) :
    EndsWord text ↔ EndsWord other := by
  cases text with
  | nil =>
      cases other with
      | nil => rfl
      | cons d other => cases same
  | cons c text =>
      cases other with
      | nil => cases same
      | cons d other =>
          obtain rfl := Option.some.inj same
          rfl

/-- The next two characters tell whether a separator that begins with a first one stands free. -/
theorem freeStanding_cons_congr {c d : Char} {text other : Text}
    (same : text.head? = other.head?) :
    freeStanding (c :: d :: text) = true ↔ freeStanding (c :: d :: other) = true := by
  rw [freeStanding_cons_cons, freeStanding_cons_cons, EndsWord.congr_iff same]

section Separated

variable {before : Text} {s : Separator}

/-- What begins a text with a separator in it does not depend on what stands behind that. -/
theorem head?_append_glyph (before : Text) (s : Separator) (rest other : Text) :
    (before ++ (s.glyph ++ rest)).head? = (before ++ (s.glyph ++ other)).head? := by
  cases before with
  | cons c before => rfl
  | nil => cases s <;> rfl

/-- A space behind a separator frees none that begins before it, unless the two are pipes in a
row. -/
theorem freeStanding_cons_append_glyph {c : Char} (apart : before = [] → s = .pipe → c ≠ '|')
    (rest : Text) :
    freeStanding (c :: (before ++ (s.glyph ++ ' ' :: rest))) = true ↔
      freeStanding (c :: (before ++ (s.glyph ++ rest))) = true := by
  cases before with
  | cons d before =>
      exact freeStanding_cons_congr (head?_append_glyph before s (' ' :: rest) rest)
  | nil =>
      cases s with
      | or => exact @freeStanding_cons_congr c '|' ('|' :: ' ' :: rest) ('|' :: rest) rfl
      | and => exact @freeStanding_cons_congr c '&' ('&' :: ' ' :: rest) ('&' :: rest) rfl
      | semi =>
          have noSemi : ¬ ((c = '|' ∨ c = '&') ∧ ';' = c) := by
            rintro ⟨rfl | rfl, same⟩ <;> cases same
          simp only [Separator.glyph, List.nil_append, List.singleton_append,
            freeStanding_cons_cons, ← and_assoc, noSemi, false_and]
      | pipe =>
          have noPipe : '|' ≠ c := (apart rfl rfl).symm
          simp only [Separator.glyph, List.nil_append, List.singleton_append,
            freeStanding_cons_cons, noPipe, false_and, and_false]

end Separated

namespace Token

/-! ## Where a token stands -/

/-- What stands in a text behind these tokens and the blanks before each of them. -/
def behind : List Token → Text → Text
  | [], text => text
  | token :: tokens, text => behind tokens ((text.dropWhile isBlank).drop token.source.length)

/-- Blanks before a token are passed over. -/
theorem behind_blank {c : Char} {tokens : List Token} (white : isBlank c = true)
    (some : tokens ≠ []) (text : Text) : behind tokens (c :: text) = behind tokens text := by
  cases tokens with
  | nil => exact absurd rfl some
  | cons token tokens => rw [behind, behind, List.dropWhile_cons_of_pos white]

/-- A token that begins with no blank is passed over where it is written. -/
theorem behind_cons {token : Token}
    (solid : ∃ c more, token.source = c :: more ∧ isBlank c = false) (tokens : List Token)
    (text : Text) : behind (token :: tokens) (token.source ++ text) = behind tokens text := by
  obtain ⟨c, more, written, noBlank⟩ := solid
  have here : (token.source ++ text).dropWhile isBlank = token.source ++ text := by
    rw [written]
    exact List.dropWhile_cons_of_neg (by simp [noBlank])
  rw [behind, here, List.drop_left]

/-- No separator begins with a blank. -/
theorem exists_source_separator (s : Separator) :
    ∃ c more, (separator s).source = c :: more ∧ isBlank c = false := by
  cases s <;> exact ⟨_, _, rfl, by decide⟩

/-! ## Words that have begun -/

/-- A word that has begun does so with a solid character, and it is a word of its own behind an
escaped pipe only if it goes on. -/
structure Begun (quoting : Quoting) (begun : Option Text) (text : Text) : Prop where
  solid : quoting = .bare ∧ begun = none ∨
    ∃ c more, begun = some (c :: more) ∧ isBlank c = false
  bound : quoting = .bare → begun = some ['\\', '|'] → ¬ EndsWord text

namespace Begun

variable {quoting later : Quoting} {begun : Option Text} {text other : Text}

theorem none (text : Text) : Begun .bare none text where
  solid := .inl ⟨rfl, rfl⟩
  bound := fun _ same => absurd same (Option.some_ne_none _).symm

/-- Characters that are taken into the word. -/
theorem extend {c : Char} {piece : Text} (isBegun : Begun quoting begun text)
    (solid : quoting = .bare → isBlank c = false)
    (bound : later = .bare → Token.extend begun (c :: piece) = some ['\\', '|'] →
      ¬ EndsWord other) :
    Begun later (Token.extend begun (c :: piece)) other where
  solid := by
    rcases isBegun.solid with ⟨bare, rfl⟩ | ⟨first, more, rfl, noBlank⟩
    · exact .inr ⟨c, piece, rfl, solid bare⟩
    · exact .inr ⟨first, more ++ c :: piece, rfl, noBlank⟩
  bound := bound

/-- A word to which a backslash and a character are added is an escaped pipe only if it begins
with them. -/
theorem eq_of_extend_escaped {c : Char} (isBegun : Begun quoting begun text)
    (isPipe : Token.extend begun ['\\', c] = some ['\\', '|']) : begun = .none ∧ c = '|' := by
  rcases isBegun.solid with ⟨-, rfl⟩ | ⟨first, more, rfl, -⟩
  · simpa [Token.extend] using isPipe
  · have length := congrArg List.length (Option.some.inj isPipe)
    simp at length

/-- A backslash and a character that are taken into the word. A pipe among them goes on. -/
theorem escaped {c : Char} (isBegun : Begun .bare begun ('\\' :: c :: text))
    (bound : begun = .none → freeStanding (c :: text) = false) :
    Begun .bare (Token.extend begun ['\\', c]) text := by
  refine isBegun.extend (fun _ => by decide) fun _ isPipe ends => ?_
  obtain ⟨rfl, rfl⟩ := isBegun.eq_of_extend_escaped isPipe
  have free : freeStanding ('|' :: text) = true := freeStanding_iff.mpr ⟨.pipe, text, rfl, ends⟩
  rw [bound rfl] at free
  cases free

/-- The word that has begun is passed over. -/
theorem behind_close (isBegun : Begun quoting begun text) (tokens : List Token) (rest : Text) :
    behind (close begun ++ tokens) (begun.getD [] ++ rest) = behind tokens rest := by
  rcases isBegun.solid with ⟨-, rfl⟩ | ⟨c, more, rfl, noBlank⟩
  · rfl
  · exact @behind_cons (.word (c :: more)) ⟨c, more, rfl, noBlank⟩ tokens rest

end Begun

/-- A word that ends with anything but a pipe is no escaped pipe. -/
theorem extend_ne_of_getLast? {piece : Text} (nonempty : piece ≠ [])
    (other : piece.getLast? ≠ some '|') (begun : Option Text) :
    extend begun piece ≠ some ['\\', '|'] := by
  intro isPipe
  have last := congrArg List.getLast? (Option.some.inj isPipe)
  rw [List.getLast?_append_of_ne_nil _ nonempty] at last
  exact other last

/-- A word goes on in quotes, or with characters of which the last is no pipe. -/
theorem Begun.goesOn {quoting later : Quoting} {begun : Option Text} {text other : Text} {c : Char}
    {piece : Text} (isBegun : Begun quoting begun text) (solid : quoting = .bare → isBlank c = false)
    (apart : later = .bare → (c :: piece).getLast? ≠ some '|') :
    Begun later (Token.extend begun (c :: piece)) other :=
  isBegun.extend solid fun bare isPipe =>
    absurd isPipe (extend_ne_of_getLast? (List.cons_ne_nil _ _) (apart bare) begun)

/-! ## Separators with a space behind them -/

/-- A pipe right behind an escaped pipe: with a space behind it the backslash takes both along. -/
def TakenAlong (earlier : List Token) (s : Separator) : Prop :=
  s = .pipe ∧ earlier.getLast? = some (.word ['\\', '|'])

/-- A text is read as some tokens, and a separator among them stands between `before` and `rest`.
With a space behind it the text is still read as these tokens, or it would be taken along. -/
structure Spacing (quoting : Quoting) (begun : Option Text) (earlier : List Token) (s : Separator)
    (later : List Token) (ending : LineEnd) (before rest : Text) : Prop where
  here : before = [] → quoting = .bare ∧ earlier = close begun
  placed :
    behind (earlier ++ [.separator s]) (begun.getD [] ++ (before ++ (s.glyph ++ rest))) = rest
  spared : (TakenAlong earlier s → before = []) →
    Scanned quoting begun (before ++ (s.glyph ++ ' ' :: rest)) (earlier ++ .separator s :: later)
      ending
  taken : TakenAlong earlier s → before ≠ [] →
    Scanned quoting begun (before ++ (s.glyph ++ ' ' :: rest))
      (earlier.dropLast ++ .backslash :: .separator .or :: later) ending

namespace Spacing

variable {quoting quotingToo : Quoting} {begun : Option Text} {earlier later : List Token}
  {s : Separator} {ending : LineEnd} {before rest piece : Text}

/-- Characters that are taken into the word are read in front. -/
theorem extend
    (spacing : Spacing quotingToo (extend begun piece) earlier s later ending before rest)
    (nonempty : piece ≠ []) (apart : TakenAlong earlier s → before ≠ [])
    (reads : ∀ found,
      Scanned quotingToo (Token.extend begun piece) (before ++ (s.glyph ++ ' ' :: rest)) found
        ending →
      Scanned quoting begun (piece ++ (before ++ (s.glyph ++ ' ' :: rest))) found ending) :
    Spacing quoting begun earlier s later ending (piece ++ before) rest where
  here empty := absurd (List.append_eq_nil_iff.mp empty).1 nonempty
  placed := by
    have placed := spacing.placed
    rw [Token.extend, Option.getD_some, List.append_assoc] at placed
    rw [List.append_assoc]
    exact placed
  spared spares := by
    have notTaken : ¬ TakenAlong earlier s := fun taken =>
      nonempty (List.append_eq_nil_iff.mp (spares taken)).1
    rw [List.append_assoc]
    exact reads _ (spacing.spared fun taken => absurd taken notTaken)
  taken along _ := by
    rw [List.append_assoc]
    exact reads _ (spacing.taken along (apart along))

/-- So a separator in the text behind them is found behind them. -/
theorem exists_extend {text : Text} (nonempty : piece ≠ [])
    (found : ∃ before rest, text = before ++ (s.glyph ++ rest) ∧
      Spacing quotingToo (Token.extend begun piece) earlier s later ending before rest)
    (apart : quotingToo = .bare → piece.getLast? ≠ some '|')
    (reads : ∀ other found, other.head? = text.head? →
      Scanned quotingToo (Token.extend begun piece) other found ending →
      Scanned quoting begun (piece ++ other) found ending) :
    ∃ before rest, piece ++ text = before ++ (s.glyph ++ rest) ∧
      Spacing quoting begun earlier s later ending before rest := by
  obtain ⟨before, rest, rfl, spacing⟩ := found
  refine ⟨piece ++ before, rest, (List.append_assoc _ _ _).symm, spacing.extend nonempty ?_ ?_⟩
  · rintro ⟨-, last⟩ empty
    obtain ⟨bare, only⟩ := spacing.here empty
    refine extend_ne_of_getLast? nonempty (apart bare) begun ?_
    rw [only] at last
    simpa [close, Token.extend] using last
  · exact fun found => reads _ found (head?_append_glyph before s _ _)

/-- A separator right behind the word that has begun. -/
theorem atGlyph {text : Text} (isBegun : Begun .bare begun (s.glyph ++ text))
    (scanned : Scanned .bare none text later ending) :
    Spacing .bare begun (close begun) s later ending [] text where
  here _ := ⟨rfl, rfl⟩
  placed := by
    rw [List.nil_append, isBegun.behind_close]
    exact behind_cons (exists_source_separator s) [] text
  spared _ := by
    have space : isBlank ' ' = true := by decide
    exact .glyph (s.atStart?_glyph space) (.blank space scanned)
  taken _ some := absurd rfl some

/-- The last token behind some in front is the last of all. -/
theorem takenAlong_append {front : List Token} (nonempty : earlier ≠ []) :
    TakenAlong (front ++ earlier) s ↔ TakenAlong earlier s := by
  rw [TakenAlong, TakenAlong, List.getLast?_append_of_ne_nil _ nonempty]

/-- Tokens are read in front. -/
theorem front {front : List Token}
    (spacing : Spacing .bare none earlier s later ending before rest) (nonempty : piece ≠ [])
    (apart : ¬ TakenAlong front s)
    (passes : ∀ tokens text, tokens ≠ [] →
      behind (front ++ tokens) (begun.getD [] ++ (piece ++ text)) = behind tokens text)
    (reads : ∀ found, Scanned .bare none (before ++ (s.glyph ++ ' ' :: rest)) found ending →
      Scanned .bare begun (piece ++ (before ++ (s.glyph ++ ' ' :: rest))) (front ++ found) ending) :
    Spacing .bare begun (front ++ earlier) s later ending (piece ++ before) rest where
  here empty := absurd (List.append_eq_nil_iff.mp empty).1 nonempty
  placed := by
    rw [List.append_assoc, List.append_assoc, passes _ _ (by simp)]
    exact spacing.placed
  spared spares := by
    have notTaken : ¬ TakenAlong earlier s := by
      intro taken
      have some : earlier ≠ [] := by
        rintro rfl
        cases taken.2
      exact nonempty (List.append_eq_nil_iff.mp (spares ((takenAlong_append some).mpr taken))).1
    rw [List.append_assoc, List.append_assoc]
    exact reads _ (spacing.spared fun taken => absurd taken notTaken)
  taken along _ := by
    have some : earlier ≠ [] := by
      rintro rfl
      exact apart (by rwa [List.append_nil] at along)
    have apartBefore : before ≠ [] := fun empty => some (spacing.here empty).2
    rw [List.append_assoc, List.dropLast_append_of_ne_nil some, List.append_assoc]
    exact reads _ (spacing.taken ((takenAlong_append some).mp along) apartBefore)

/-- An escaped pipe with a pipe right behind it is taken apart by a space: the two pipes become one
separator, which the backslash takes along. -/
theorem takenApart (spacing : Spacing .bare (some ['\\', '|']) earlier .pipe later ending [] rest) :
    Spacing .bare none earlier .pipe later ending ['\\', '|'] rest where
  here empty := absurd empty (List.cons_ne_nil _ _)
  placed := spacing.placed
  spared spares := by
    have only := (spacing.here rfl).2
    exact absurd (spares ⟨rfl, by rw [only]; rfl⟩) (List.cons_ne_nil _ _)
  taken along _ := by
    have only := (spacing.here rfl).2
    have scanned := spacing.spared fun _ => rfl
    have white : isBlank ' ' = true := by decide
    have space : EndsWord (' ' :: rest) := white
    rw [only] at scanned ⊢
    obtain ⟨tokens, same, behindPipe⟩ := scanned.of_glyph (Separator.pipe.atStart?_glyph space)
    obtain rfl : later = tokens := (List.cons.inj (List.append_cancel_left same)).2
    exact @Scanned.escapedGlyph .or (' ' :: rest) later ending space behindPipe

/-- A backslash and the character behind it are read in front. -/
theorem exists_escaped {c : Char} {text : Text} (isBegun : Begun .bare begun ('\\' :: c :: text))
    (bound : begun = none → freeStanding (c :: text) = false)
    (found : ∃ before rest, text = before ++ (s.glyph ++ rest) ∧
      Spacing .bare (Token.extend begun ['\\', c]) earlier s later ending before rest) :
    ∃ before rest, '\\' :: c :: text = before ++ (s.glyph ++ rest) ∧
      Spacing .bare begun earlier s later ending before rest := by
  obtain ⟨before, rest, rfl, spacing⟩ := found
  refine ⟨'\\' :: c :: before, rest, rfl, ?_⟩
  by_cases isApart : TakenAlong earlier s ∧ before = []
  · obtain ⟨⟨rfl, last⟩, rfl⟩ := isApart
    have isPipe : Token.extend begun ['\\', c] = some ['\\', '|'] := by
      rw [(spacing.here rfl).2] at last
      simpa [close, Token.extend] using last
    obtain ⟨rfl, rfl⟩ := isBegun.eq_of_extend_escaped isPipe
    exact spacing.takenApart
  · refine @Spacing.extend .bare .bare _ _ _ _ _ _ _ ['\\', c] spacing (List.cons_ne_nil _ _)
      (fun taken empty => isApart ⟨taken, empty⟩) fun found => .escaped fun empty => ?_
    rw [Bool.eq_false_iff, Ne, freeStanding_cons_append_glyph, bound empty]
    · exact Bool.false_ne_true
    · rintro rfl rfl rfl
      refine isApart ⟨⟨rfl, ?_⟩, rfl⟩
      rw [(spacing.here rfl).2, empty]
      rfl

/-- A character that stands for itself is read in front, as it looks at the next one only. -/
theorem exists_plain {c : Char} {text : Text} (isPlain : IsPlain c text)
    (goesOn : c = '#' → begun ≠ none)
    (found : ∃ before rest, text = before ++ (s.glyph ++ rest) ∧
      Spacing .bare (Token.extend begun [c]) earlier s later ending before rest) :
    ∃ before rest, c :: text = before ++ (s.glyph ++ rest) ∧
      Spacing .bare begun earlier s later ending before rest := by
  have noPipe : [c].getLast? ≠ some '|' := fun last => isPlain.noGlyph.1 (Option.some.inj last)
  refine exists_extend (List.cons_ne_nil c []) found (fun _ => noPipe) fun other found same => ?_
  refine .plain ⟨isPlain.solid, isPlain.unescaping, isPlain.unquoting, ?_⟩ goesOn
  rw [← isPlain.uncut]
  exact Separator.atStart?_cons_congr same

/-- A blank is read in front. It ends the word that has begun, which is no escaped pipe then. -/
theorem exists_blank {c : Char} {text : Text} (isBegun : Begun .bare begun (c :: text))
    (white : isBlank c = true)
    (found : ∃ before rest, text = before ++ (s.glyph ++ rest) ∧
      Spacing .bare none earlier s later ending before rest) :
    ∃ before rest, c :: text = before ++ (s.glyph ++ rest) ∧
      Spacing .bare begun (close begun ++ earlier) s later ending before rest := by
  obtain ⟨before, rest, rfl, spacing⟩ := found
  refine ⟨c :: before, rest, rfl, spacing.front (List.cons_ne_nil c []) ?_ ?_ ?_⟩
  · rintro ⟨-, last⟩
    refine isBegun.bound rfl ?_ white
    cases begun with
    | none => cases last
    | some raw => simpa [close] using last
  · intro tokens text some
    rw [isBegun.behind_close]
    exact behind_blank white some text
  · exact fun found => .blank white

/-- Another separator is read in front. It ends the word that has begun. -/
theorem exists_glyph {t : Separator} {text : Text} (isBegun : Begun .bare begun (t.glyph ++ text))
    (starts : Separator.atStart? (t.glyph ++ text) = some t)
    (found : ∃ before rest, text = before ++ (s.glyph ++ rest) ∧
      Spacing .bare none earlier s later ending before rest) :
    ∃ before rest, t.glyph ++ text = before ++ (s.glyph ++ rest) ∧
      Spacing .bare begun ((close begun ++ [.separator t]) ++ earlier) s later ending before
        rest := by
  obtain ⟨before, rest, rfl, spacing⟩ := found
  refine ⟨t.glyph ++ before, rest, (List.append_assoc _ _ _).symm, spacing.front ?_ ?_ ?_ ?_⟩
  · cases t <;> exact List.cons_ne_nil _ _
  · rintro ⟨-, last⟩
    rw [List.getLast?_concat] at last
    cases last
  · intro tokens text some
    rw [List.append_assoc, isBegun.behind_close]
    exact behind_cons (exists_source_separator t) tokens text
  · intro found scanned
    rw [List.append_assoc]
    refine .glyph ?_ scanned
    rw [← starts]
    exact Separator.atStart?_glyph_congr (head?_append_glyph before s _ _)

/-- A separator that a backslash takes along is read in front. What frees it stands right behind
it and stays there. -/
theorem exists_escapedGlyph {t : Separator} {text : Text} (ends : EndsWord text)
    (found : ∃ before rest, text = before ++ (s.glyph ++ rest) ∧
      Spacing .bare none earlier s later ending before rest) :
    ∃ before rest, '\\' :: (t.glyph ++ text) = before ++ (s.glyph ++ rest) ∧
      Spacing .bare none ([.backslash, .separator t] ++ earlier) s later ending before rest := by
  obtain ⟨before, rest, rfl, spacing⟩ := found
  refine ⟨'\\' :: (t.glyph ++ before), rest, ?_,
    spacing.front (List.cons_ne_nil '\\' t.glyph) ?_ ?_ ?_⟩
  · rw [List.cons_append, List.append_assoc]
  · rintro ⟨-, last⟩
    cases last
  · intro tokens text _
    have first := @behind_cons .backslash ⟨'\\', [], rfl, by decide⟩
      (.separator t :: tokens) (t.glyph ++ text)
    exact first.trans (behind_cons (exists_source_separator t) tokens text)
  · intro found scanned
    rw [List.cons_append]
    refine .escapedGlyph ((EndsWord.congr_iff ?_).mp ends) scanned
    exact head?_append_glyph before s _ _

end Spacing

/-- What is not the last token in a text is not the last one behind other tokens. -/
theorem getLast?_ne_of_append {front earlier : List Token} {token : Token}
    (other : (front ++ earlier).getLast? ≠ some token) : earlier.getLast? ≠ some token := by
  intro last
  refine other ?_
  rw [List.getLast?_append, last]
  rfl

/-- Where no separator is read none is found. -/
theorem append_ne_of_not_mem {tokens earlier later : List Token} {s : Separator}
    (noSeparator : .separator s ∉ tokens) : tokens ≠ earlier ++ .separator s :: later := by
  rintro rfl
  exact noSeparator (List.mem_append_right _ List.mem_cons_self)

theorem separator_not_mem_close (s : Separator) (begun : Option Text) :
    .separator s ∉ close begun := by
  cases begun <;> simp [close]

/-- Every separator that is not escaped stands somewhere in the text, and a space behind it is read
as one blank more unless the separator is taken along. -/
theorem Scanned.exists_spacing {quoting : Quoting} {begun : Option Text} {text : Text}
    {tokens : List Token} {ending : LineEnd} (scanned : Scanned quoting begun text tokens ending)
    (isBegun : Begun quoting begun text) {earlier later : List Token} {s : Separator}
    (same : tokens = earlier ++ .separator s :: later)
    (unescaped : earlier.getLast? ≠ some .backslash) :
    ∃ before rest, text = before ++ (s.glyph ++ rest) ∧
      Spacing quoting begun earlier s later ending before rest := by
  induction scanned generalizing earlier with
  | finish begun => exact absurd same (append_ne_of_not_mem (separator_not_mem_close s begun))
  | comment rest => exact absurd same (append_ne_of_not_mem List.not_mem_nil)
  | lastBackslash begun =>
      refine absurd same (append_ne_of_not_mem ?_)
      simp [separator_not_mem_close]
  | @blank c begun text tokens ending white scanned ih =>
      obtain ⟨earlier, rfl, rfl⟩ := exists_of_close_append (by simp) same
      exact Spacing.exists_blank isBegun white (ih (.none text) rfl (getLast?_ne_of_append unescaped))
  | @glyph t begun text tokens ending starts scanned ih =>
      obtain ⟨more, rfl, split⟩ := exists_of_close_append (by simp) same
      cases more with
      | nil =>
          obtain ⟨isSeparator, rfl⟩ := List.cons.inj split
          obtain rfl := Token.separator.inj isSeparator
          rw [List.append_nil]
          exact ⟨[], text, rfl, .atGlyph isBegun scanned⟩
      | cons token earlier =>
          obtain ⟨rfl, rfl⟩ := List.cons.inj split
          rw [List.append_cons] at unescaped ⊢
          exact Spacing.exists_glyph isBegun starts
            (ih (.none text) rfl (getLast?_ne_of_append unescaped))
  | @escapedGlyph t text tokens ending ends scanned ih =>
      rcases earlier with - | ⟨first, - | ⟨second, earlier⟩⟩
      · cases same
      · obtain ⟨rfl, -⟩ := List.cons.inj same
        exact absurd rfl unescaped
      obtain ⟨rfl, split⟩ := List.cons.inj same
      obtain ⟨rfl, rfl⟩ := List.cons.inj split
      exact Spacing.exists_escapedGlyph ends
        (ih (.none text) rfl (@getLast?_ne_of_append [_, _] earlier _ unescaped))
  | @escaped c begun text tokens ending bound scanned ih =>
      exact Spacing.exists_escaped isBegun bound (ih (isBegun.escaped bound) same unescaped)
  | @plain c begun text tokens ending isPlain goesOn scanned ih =>
      have noPipe : [c].getLast? ≠ some '|' := fun last => isPlain.noGlyph.1 (Option.some.inj last)
      exact Spacing.exists_plain isPlain goesOn
        (ih (isBegun.goesOn (fun _ => isPlain.solid) fun _ => noPipe) same unescaped)
  | @openSingle begun text tokens ending scanned ih =>
      exact Spacing.exists_extend (List.cons_ne_nil _ _)
        (ih (isBegun.goesOn (fun _ => by decide) nofun) same unescaped) nofun
        fun _ _ _ => .openSingle
  | @openDouble begun text tokens ending scanned ih =>
      exact Spacing.exists_extend (List.cons_ne_nil _ _)
        (ih (isBegun.goesOn (fun _ => by decide) nofun) same unescaped) nofun
        fun _ _ _ => .openDouble
  | @closeSingle begun text tokens ending scanned ih =>
      have noPipe : ['\''].getLast? ≠ some '|' := by decide
      exact Spacing.exists_extend (List.cons_ne_nil _ _)
        (ih (isBegun.goesOn nofun fun _ => noPipe) same unescaped) (fun _ => noPipe)
        fun _ _ _ => .closeSingle
  | @closeDouble begun text tokens ending scanned ih =>
      have noPipe : ['"'].getLast? ≠ some '|' := by decide
      exact Spacing.exists_extend (List.cons_ne_nil _ _)
        (ih (isBegun.goesOn nofun fun _ => noPipe) same unescaped) (fun _ => noPipe)
        fun _ _ _ => .closeDouble
  | @inSingle c begun text tokens ending other scanned ih =>
      exact Spacing.exists_extend (List.cons_ne_nil c [])
        (ih (isBegun.goesOn nofun nofun) same unescaped) nofun fun _ _ _ => .inSingle other
  | @inDouble c begun text tokens ending other scanned ih =>
      exact Spacing.exists_extend (List.cons_ne_nil c [])
        (ih (isBegun.goesOn nofun nofun) same unescaped) nofun fun _ _ _ => .inDouble other
  | @escapedInDouble c begun text tokens ending scanned ih =>
      exact Spacing.exists_extend (List.cons_ne_nil '\\' [c])
        (ih (isBegun.goesOn nofun nofun) same unescaped) nofun fun _ _ _ => .escapedInDouble

end Token

end Errand.Shell
