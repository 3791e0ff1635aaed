/-
# Where in a line a character stands

A line is walked character by character, and every character says where the next one stands:
in a word or between words, in quotes, behind a backslash, in a comment. This walk knows
nothing of tokens. It gives statements about lines a way to say that a `#` begins a word, that
a blank is outside quotes, or that a line ends behind a backslash.

The scan keeps its own account of open quotes and of the word that has begun. The two accounts
agree at every step, so a line cannot be read exactly if the walk ends inside quotes.
-/
import Errand.Proofs.Shell.Scanned

namespace Errand.Shell

/-- Where the next character of a line stands. -/
inductive Place where
  /-- Outside quotes, where a word would begin. -/
  | gap
  /-- Outside quotes, in a word. -/
  | word
  /-- Outside quotes, in a word, behind an `&` that is no part of a separator yet. -/
  | ampersand
  /-- Outside quotes, behind a backslash. -/
  | escape
  | single
  | double
  /-- Inside double quotes, behind a backslash. -/
  | doubleEscape
  /-- Behind a `#` that would have begun a word. -/
  | comment
  deriving DecidableEq, Repr

namespace Place

/-- The place behind a character outside quotes that neither begins a comment nor completes a
separator. -/
def outside (c : Char) : Place :=
  if isBlank c || c = '|' || c = ';' then .gap
  else if c = '\'' then .single
  else if c = '"' then .double
  else if c = '\\' then .escape
  else if c = '&' then .ampersand
  else .word

/-- The place behind a character. -/
def next : Place → Char → Place
  | .gap, c => if c = '#' then .comment else outside c
  | .word, c => outside c
  | .ampersand, c => if c = '&' then .gap else outside c
  | .escape, _ => .word
  | .single, c => if c = '\'' then .word else .single
  | .double, c => if c = '"' then .word else if c = '\\' then .doubleEscape else .double
  | .doubleEscape, _ => .double
  | .comment, _ => .comment

/-- The place behind a text that begins at a place. -/
def behind (place : Place) (text : Text) : Place := text.foldl next place

/-- The place behind a line. -/
def atEnd (line : Text) : Place := gap.behind line

/-- Whether a place is outside quotes and comments and not behind a backslash. -/
def isBare : Place → Bool
  | .gap => true
  | .word => true
  | .ampersand => true
  | _ => false

/-- The end that a line has which ends at a place. Inside quotes no line can end. -/
def lineEnd? : Place → Option Token.LineEnd
  | .gap => some .bare
  | .word => some .bare
  | .ampersand => some .bare
  | .escape => some .backslash
  | .single => none
  | .double => none
  | .doubleEscape => none
  | .comment => some .comment

/-- Whether a character is behind a backslash that means anything. -/
def isEscaped : Place → Bool
  | .escape => true
  | .doubleEscape => true
  | _ => false

/-- Every character of a text stands where it may. -/
def Throughout (may : Place → Char → Prop) (place : Place) (text : Text) : Prop :=
  ∀ before c after, text = before ++ c :: after → may (place.behind before) c

/-- What is said of a place and of the text to come there holds all along a text. -/
def Everywhere (holds : Place → Text → Prop) (place : Place) (text : Text) : Prop :=
  ∀ before after, text = before ++ after → holds (place.behind before) after

@[simp] theorem behind_nil (place : Place) : place.behind [] = place := rfl

@[simp] theorem behind_cons (place : Place) (c : Char) (text : Text) :
    place.behind (c :: text) = (place.next c).behind text := rfl

theorem behind_append (place : Place) (text other : Text) :
    place.behind (text ++ other) = (place.behind text).behind other :=
  List.foldl_append

/-- A comment goes on to the end of the line. -/
@[simp] theorem behind_comment (text : Text) : comment.behind text = .comment := by
  induction text with
  | nil => rfl
  | cons c text ih => exact ih

variable {may : Place → Char → Prop} {place : Place} {c : Char}

/-- What is said of a text holds of the rest of it, seen from where the rest begins. -/
theorem Throughout.of_append {text other : Text} (all : Throughout may place (text ++ other)) :
    Throughout may (place.behind text) other := by
  rintro before c after rfl
  rw [← behind_append]
  exact all (text ++ before) c after (List.append_assoc text before (c :: after)).symm

theorem Throughout.of_cons {text : Text} (all : Throughout may place (c :: text)) :
    may place c ∧ Throughout may (place.next c) text := by
  refine ⟨all [] c text rfl, ?_⟩
  rw [← List.singleton_append] at all
  exact all.of_append

theorem throughout_nil : Throughout may place [] := by
  intro before c after empty
  cases before <;> cases empty

theorem throughout_cons {text : Text} :
    Throughout may place (c :: text) ↔ may place c ∧ Throughout may (place.next c) text := by
  constructor
  · exact Throughout.of_cons
  · rintro ⟨here, behind⟩ before d after split
    cases before with
    | nil =>
        obtain ⟨rfl, rfl⟩ := List.cons.inj split
        exact here
    | cons first before =>
        obtain ⟨rfl, rfl⟩ := List.cons.inj split
        exact behind before d after rfl

instance [decidable : ∀ place c, Decidable (may place c)] :
    (place : Place) → (text : Text) → Decidable (Throughout may place text)
  | _, [] => .isTrue throughout_nil
  | place, c :: text =>
      have := instDecidableThroughout (place.next c) text
      decidable_of_iff (may place c ∧ Throughout may (place.next c) text) throughout_cons.symm

/-- What holds of every character of a text holds of every character of its beginning. -/
theorem Throughout.of_append_left {text other : Text}
    (all : Throughout may place (text ++ other)) : Throughout may place text := by
  rintro before c after rfl
  exact all before c (after ++ other) (by rw [List.append_assoc]; rfl)

section Everywhere

variable {holds : Place → Text → Prop} {text other : Text}

theorem Everywhere.here (all : Everywhere holds place text) : holds place text :=
  all [] text rfl

theorem Everywhere.of_append (all : Everywhere holds place (text ++ other)) :
    Everywhere holds (place.behind text) other := by
  rintro before after rfl
  rw [← behind_append]
  exact all (text ++ before) after (List.append_assoc text before after).symm

theorem Everywhere.of_cons (all : Everywhere holds place (c :: text)) :
    Everywhere holds (place.next c) text := by
  rw [← List.singleton_append] at all
  exact all.of_append

end Everywhere

/-- A line with no `#` where a word would begin does not end in a comment. -/
theorem behind_ne_comment {text : Text} (started : place ≠ .comment)
    (noHash : Throughout (fun place c => place = .gap → c ≠ '#') place text) :
    place.behind text ≠ .comment := by
  induction text generalizing place with
  | nil => exact started
  | cons c text ih =>
      obtain ⟨here, behind⟩ := noHash.of_cons
      refine ih ?_ behind
      have outsideComments : outside c ≠ .comment := by
        unfold outside
        repeat' split
        all_goals decide
      cases place with
      | gap => rwa [next, if_neg (here rfl)]
      | word => exact outsideComments
      | ampersand =>
          rw [next]
          split
          · decide
          · exact outsideComments
      | escape | doubleEscape => exact Place.noConfusion
      | single =>
          rw [next]
          split <;> decide
      | double =>
          rw [next]
          repeat' split
          all_goals decide
      | comment => exact absurd rfl started

/-- Outside quotes most characters lead to where they always lead. -/
theorem next_of_isBare (bare : place.isBare = true) (noHash : c ≠ '#') (noAmpersand : c ≠ '&') :
    place.next c = outside c := by
  cases place with
  | gap => exact if_neg noHash
  | word => rfl
  | ampersand => exact if_neg noAmpersand
  | escape | single | double | doubleEscape | comment => cases bare

/-- Only quotes, backslashes and comments lead away from the places outside quotes. -/
theorem isBare_next (bare : place.isBare = true) (uncommented : place.next c ≠ .comment)
    (plain : c ≠ '\'' ∧ c ≠ '"' ∧ c ≠ '\\') : (place.next c).isBare = true := by
  have outsideBare : (outside c).isBare = true := by
    rw [outside, if_neg plain.1, if_neg plain.2.1, if_neg plain.2.2]
    split
    · rfl
    · split <;> rfl
  cases place with
  | gap =>
      rw [next] at uncommented ⊢
      split at uncommented
      · exact absurd rfl uncommented
      · next noHash => rwa [if_neg noHash]
  | word => exact outsideBare
  | ampersand =>
      rw [next]
      split
      · rfl
      · exact outsideBare
  | escape | single | double | doubleEscape | comment => cases bare

/-! ## The account of the scan -/

/-- A place is where the scan is that has these quotes open, this word begun and this text
to read. -/
inductive Fits : Place → Quoting → Option Text → Text → Prop
  | gap (text : Text) : Fits .gap .bare none text
  | word (raw text : Text) : Fits .word .bare (some raw) text
  | ampersand (raw : Text) {text : Text} (single : text.head? ≠ some '&') :
      Fits .ampersand .bare (some raw) text
  /-- A blank comes next, which leads to a gap from any place outside quotes. -/
  | ended {place : Place} {text : Text} (bare : place.isBare = true) (ends : EndsWord text) :
      Fits place .bare none text
  | single (raw text : Text) : Fits .single .single (some raw) text
  | double (raw text : Text) : Fits .double .double (some raw) text

namespace Fits

variable {begun : Option Text} {rest : Text}

theorem isBare (fits : Fits place .bare begun rest) : place.isBare = true := by
  cases fits with
  | gap | word | ampersand => rfl
  | ended bare ends => exact bare

/-- Outside quotes the place behind a character is told by the character alone, unless it
begins a comment. -/
theorem next_eq (fits : Fits place .bare begun (c :: rest)) (goesOn : c = '#' → begun ≠ none) :
    place.next c = outside c := by
  cases fits with
  | gap => exact if_neg fun hash => goesOn hash rfl
  | word => rfl
  | ampersand raw single => exact if_neg fun same => single (congrArg some same)
  | ended bare ends =>
      exact next_of_isBare bare (Token.ne_of_isBlank ends (by decide))
        (Token.ne_of_isBlank ends (by decide))

theorem next_eq_of_ne (fits : Fits place .bare begun (c :: rest)) (noHash : c ≠ '#') :
    place.next c = outside c :=
  fits.next_eq fun hash => absurd hash noHash

/-- A blank ends the word. -/
theorem next_blank (fits : Fits place .bare begun (c :: rest)) (white : isBlank c = true) :
    place.next c = .gap := by
  rw [fits.next_eq_of_ne (Token.ne_of_isBlank white (by decide)), outside, white]
  rfl

/-- A backslash escapes the next character. -/
theorem next_backslash (fits : Fits place .bare begun ('\\' :: rest)) :
    place.next '\\' = .escape :=
  fits.next_eq_of_ne (by decide)

/-- A separator ends the word. -/
theorem behind_glyph {s : Separator} (fits : Fits place .bare begun (s.glyph ++ rest)) :
    place.behind s.glyph = .gap := by
  cases s with
  | pipe => exact fits.next_eq_of_ne (by decide)
  | semi => exact fits.next_eq_of_ne (by decide)
  | or =>
      rw [Separator.glyph, behind_cons, fits.next_eq_of_ne (by decide)]
      rfl
  | and =>
      rw [Separator.glyph, behind_cons, fits.next_eq_of_ne (by decide)]
      rfl

theorem behind_glyph_append {s : Separator} (fits : Fits place .bare begun (s.glyph ++ rest)) :
    place.behind (s.glyph ++ rest) = Place.gap.behind rest := by
  rw [behind_append, fits.behind_glyph]

/-- A separator behind a backslash stays outside quotes. -/
theorem behind_escapedGlyph {s : Separator}
    (fits : Fits place .bare begun ('\\' :: (s.glyph ++ rest))) :
    (place.behind ('\\' :: s.glyph)).isBare = true := by
  rw [behind_cons, fits.next_backslash]
  cases s <;> decide

/-- A character that stands for itself is part of a word. -/
theorem plain (fits : Fits place .bare begun (c :: rest)) (isPlain : Token.IsPlain c rest)
    (goesOn : c = '#' → begun ≠ none) :
    Fits (place.next c) .bare (Token.extend begun [c]) rest := by
  obtain ⟨noPipe, noSemi⟩ := isPlain.noGlyph
  obtain ⟨unquotingSingle, unquotingDouble⟩ := isPlain.unquoting
  rw [fits.next_eq goesOn, outside, isPlain.solid]
  by_cases isAmpersand : c = '&'
  · subst isAmpersand
    exact ampersand _ isPlain.single
  · simpa [noPipe, noSemi, isAmpersand, isPlain.unescaping, unquotingSingle, unquotingDouble,
      Token.extend] using word _ rest

/-- A backslash and the character behind it are part of a word. -/
theorem escaped (fits : Fits place .bare begun ('\\' :: c :: rest)) :
    Fits (place.behind ['\\', c]) .bare (Token.extend begun ['\\', c]) rest := by
  rw [behind_cons, fits.next_backslash]
  exact .word _ _

theorem openSingle (fits : Fits place .bare begun ('\'' :: rest)) :
    Fits (place.next '\'') .single (Token.extend begun ['\'']) rest := by
  rw [fits.next_eq_of_ne (by decide)]
  exact .single _ _

theorem openDouble (fits : Fits place .bare begun ('"' :: rest)) :
    Fits (place.next '"') .double (Token.extend begun ['"']) rest := by
  rw [fits.next_eq_of_ne (by decide)]
  exact .double _ _

theorem closeSingle (fits : Fits place .single begun ('\'' :: rest)) :
    Fits (place.next '\'') .bare (Token.extend begun ['\'']) rest := by
  cases fits
  exact .word _ _

theorem closeDouble (fits : Fits place .double begun ('"' :: rest)) :
    Fits (place.next '"') .bare (Token.extend begun ['"']) rest := by
  cases fits
  exact .word _ _

theorem inSingle (fits : Fits place .single begun (c :: rest)) (other : c ≠ '\'') :
    Fits (place.next c) .single (Token.extend begun [c]) rest := by
  cases fits
  rw [next, if_neg other]
  exact .single _ _

theorem inDouble (fits : Fits place .double begun (c :: rest)) (other : c ≠ '"' ∧ c ≠ '\\') :
    Fits (place.next c) .double (Token.extend begun [c]) rest := by
  cases fits
  rw [next, if_neg other.1, if_neg other.2]
  exact .double _ _

theorem escapedInDouble (fits : Fits place .double begun ('\\' :: c :: rest)) :
    Fits (place.behind ['\\', c]) .double (Token.extend begun ['\\', c]) rest := by
  cases fits
  exact .double _ _

end Fits

/-- A text ends where its reading ends. -/
theorem lineEnd?_behind {quoting : Quoting} {begun : Option Text} {text : Text}
    {tokens : List Token} {ending : Token.LineEnd}
    (scanned : Token.Scanned quoting begun text tokens ending)
    (fits : Fits place quoting begun text) : (place.behind text).lineEnd? = some ending := by
  induction scanned generalizing place with
  | finish begun =>
      cases fits with
      | ended bare ends => cases place <;> first | rfl | cases bare
      | gap | word | ampersand => rfl
  | comment rest =>
      cases fits with
      | gap => rw [behind_cons, next, if_pos rfl, behind_comment]; rfl
      | ended bare ends => cases ends
  | blank white later ih =>
      rw [behind_cons, fits.next_blank white]
      exact ih (.gap _)
  | glyph starts later ih =>
      rw [fits.behind_glyph_append]
      exact ih (.gap _)
  | lastBackslash begun => rw [behind_cons, fits.next_backslash]; rfl
  | @escapedGlyph s rest tokens ending ends later ih =>
      rw [← List.cons_append, behind_append]
      exact ih (.ended fits.behind_escapedGlyph ends)
  | escaped bound later ih => exact ih fits.escaped
  | plain isPlain goesOn later ih => exact ih (fits.plain isPlain goesOn)
  | openSingle later ih => exact ih fits.openSingle
  | openDouble later ih => exact ih fits.openDouble
  | closeSingle later ih => exact ih fits.closeSingle
  | closeDouble later ih => exact ih fits.closeDouble
  | inSingle other later ih => exact ih (fits.inSingle other)
  | inDouble other later ih => exact ih (fits.inDouble other)
  | escapedInDouble later ih => exact ih fits.escapedInDouble

/-- At the end of a word it makes no difference where outside quotes the walk is. -/
theorem lineEnd?_behind_of_endsWord {rest : Text} (bare : place.isBare = true)
    (ends : EndsWord rest) : (place.behind rest).lineEnd? = (gap.behind rest).lineEnd? := by
  cases rest with
  | nil => cases place <;> first | rfl | cases bare
  | cons c rest =>
      have here : Fits place .bare none (c :: rest) := .ended bare ends
      have there : Fits .gap .bare none (c :: rest) := .gap _
      rw [behind_cons, behind_cons, here.next_blank ends, there.next_blank ends]

/-- A text that cannot be read ends inside quotes. The rules of `Scanned` only speak of texts that
can be read, so this follows the scan itself. -/
theorem lineEnd?_behind_of_error {quoting : Quoting} {begun : Option Text} {text : Text}
    {quote : Char} (fails : Token.scan quoting begun text = .error quote)
    (fits : Fits place quoting begun text) : (place.behind text).lineEnd? = none := by
  fun_induction Token.scan quoting begun text generalizing place with
  | case1 | case7 | case15 => cases fails
  | case2 | case3 => cases fits; rfl
  | case4 begun c rest ih =>
      by_cases closing : c = '\''
      · subst closing
        exact ih fails fits.closeSingle
      · rw [if_neg closing] at ih fails
        exact ih fails (fits.inSingle closing)
  | case5 begun c rest ih => exact ih fails fits.escapedInDouble
  | case6 begun c rest unescaped ih =>
      by_cases closing : c = '"'
      · subst closing
        exact ih fails fits.closeDouble
      · rw [if_neg closing] at ih fails
        by_cases isBackslash : c = '\\'
        · subst isBackslash
          cases rest with
          | nil => cases fits; rfl
          | cons following rest => exact absurd rfl (unescaped following rest rfl)
        · exact ih fails (fits.inDouble ⟨closing, isBackslash⟩)
  | case8 begun c rest free ih =>
      simp only [Bool.and_eq_true] at free
      obtain ⟨s, later, same, ends⟩ := freeStanding_iff.mp free.2
      have glyphFits : Fits .gap .bare none (s.glyph ++ later) := .gap _
      have behindGlyph := ih (eq_error_of_map_eq_error fails) (.gap _)
      rw [same] at fits ⊢
      rw [same, behind_append, glyphFits.behind_glyph] at behindGlyph
      rw [← List.cons_append, behind_append,
        lineEnd?_behind_of_endsWord fits.behind_escapedGlyph ends, behindGlyph]
  | case9 begun c rest bound ih => exact ih fails fits.escaped
  | case10 begun rest ih =>
      have walked := Fits.behind_glyph_append (s := .or) fits
      exact (congrArg lineEnd? walked).trans (ih (eq_error_of_map_eq_error fails) (.gap _))
  | case11 begun rest ih =>
      have walked := Fits.behind_glyph_append (s := .and) fits
      exact (congrArg lineEnd? walked).trans (ih (eq_error_of_map_eq_error fails) (.gap _))
  | case12 begun rest single ih =>
      have walked := Fits.behind_glyph_append (s := .pipe) fits
      exact (congrArg lineEnd? walked).trans (ih (eq_error_of_map_eq_error fails) (.gap _))
  | case13 begun rest ih =>
      have walked := Fits.behind_glyph_append (s := .semi) fits
      exact (congrArg lineEnd? walked).trans (ih (eq_error_of_map_eq_error fails) (.gap _))
  | case14 begun c rest _ _ _ _ _ _ white ih =>
      rw [behind_cons, fits.next_blank white]
      exact ih (eq_error_of_map_eq_error fails) (.gap _)
  | case16 begun c rest loneBackslash backslash or and pipe semi solid uncommented ih =>
      by_cases isSingle : c = '\''
      · subst isSingle
        exact ih fails fits.openSingle
      by_cases isDouble : c = '"'
      · subst isDouble
        exact ih fails fits.openDouble
      rw [if_neg isSingle, if_neg isDouble] at ih fails
      refine ih fails (fits.plain (Token.isPlain_of_not solid loneBackslash backslash or and pipe
        semi ⟨isSingle, isDouble⟩) ?_)
      rintro rfl rfl
      exact uncommented rfl

/-- A line ends where its reading ends. -/
theorem lineEnd?_atEnd {line : Text} {tokens : List Token} (lexed : Token.lex line = .ok tokens) :
    ∃ ending, (atEnd line).lineEnd? = some ending ∧
      Token.Scanned .bare none line tokens ending := by
  obtain ⟨ending, scanned⟩ := Token.lex_eq_ok_iff.mp lexed
  exact ⟨ending, lineEnd?_behind scanned (.gap line), scanned⟩

/-- A line cannot be read exactly if it ends inside quotes. -/
theorem lex_eq_error_iff {line : Text} :
    (∃ fault, Token.lex line = .error fault) ↔ (atEnd line).lineEnd? = none := by
  constructor
  · rintro ⟨fault, fails⟩
    obtain ⟨quote, fails⟩ := exists_of_mapError_eq_error fails
    exact lineEnd?_behind_of_error fails (.gap line)
  · intro quoted
    cases lexed : Token.lex line with
    | error fault => exact ⟨fault, rfl⟩
    | ok tokens =>
        obtain ⟨ending, bare, -⟩ := lineEnd?_atEnd lexed
        rw [quoted] at bare
        cases bare

end Place

/-- A line behind which more can be read, unless it ends inside quotes. -/
structure EndsOpen (line : Text) : Prop where
  uncommented : Place.atEnd line ≠ .comment
  /-- No backslash at the end waits for a character. -/
  finished : Place.atEnd line ≠ .escape

namespace EndsOpen

variable {line : Text}

/-- A line with an open end cannot be read exactly if it does not end outside quotes. -/
theorem lex_eq_error_iff_isBare (endsOpen : EndsOpen line) :
    (∃ fault, Token.lex line = .error fault) ↔ (Place.atEnd line).isBare = false := by
  obtain ⟨uncommented, finished⟩ := endsOpen
  rw [Place.lex_eq_error_iff]
  cases place : Place.atEnd line with
  | escape => exact absurd place finished
  | comment => exact absurd place uncommented
  | gap | word | ampersand | single | double | doubleEscape =>
      simp [Place.lineEnd?, Place.isBare]

/-- An open end is the bare end of the reading. -/
theorem scanned {tokens : List Token} (endsOpen : EndsOpen line)
    (lexed : Token.lex line = .ok tokens) : Token.Scanned .bare none line tokens .bare := by
  obtain ⟨uncommented, finished⟩ := endsOpen
  obtain ⟨ending, ended, scanned⟩ := Place.lineEnd?_atEnd lexed
  cases place : Place.atEnd line with
  | escape => exact absurd place finished
  | comment => exact absurd place uncommented
  | gap | word | ampersand =>
      rw [place] at ended
      cases ended
      exact scanned
  | single | double | doubleEscape =>
      rw [place] at ended
      cases ended

end EndsOpen

end Errand.Shell
