/-
# Texts in quotes

A text can be written into a line in three ways: in single quotes, in double quotes, and
with a backslash before every character. Each way writes character by character, and the
scan and the unquoting read one character back at a time, so both are settled by what one
character does. Between the quotes neither of them looks at a blank, a separator, a `#` or
a dollar sign as it does outside.

One text goes another way than all others: a lone `|` or `;` behind a backslash is a
separator again, with the backslash as a token of its own before it.
-/
import Errand.Proofs.Shell.Expansion
import Errand.Proofs.Shell.Scanning

namespace Errand.Shell

/-- A way to write a text into a line. -/
inductive Style where
  /-- In single quotes. -/
  | single
  /-- In double quotes, with a backslash before each character that they do not protect. -/
  | double
  /-- Without quotes, with a backslash before every character. -/
  | escaped
  deriving DecidableEq, Repr

/-- A character that needs a backslash inside double quotes. -/
def needsEscape (c : Char) : Bool := c = '"' || c = '\\' || c = '$' || c = '`'

namespace Style

/-- The quote on either side. -/
def quote : Style → Text
  | .single => ['\'']
  | .double => ['"']
  | .escaped => []

/-- What is open between the quotes. -/
def quoting : Style → Quoting
  | .single => .single
  | .double => .double
  | .escaped => .bare

/-- One character. A single quote leaves the single quotes, stands behind a backslash
there, and enters them again. -/
def writeChar : Style → Char → Text
  | .single, c => if c = '\'' then ['\'', '\\', '\'', '\''] else [c]
  | .double, c => if needsEscape c then ['\\', c] else [c]
  | .escaped, c => ['\\', c]

/-- The characters of a text, without the quotes around them. -/
def writeChars (style : Style) (text : Text) : Text := text.flatMap style.writeChar

/-- A text as it stands in a line. -/
def write (style : Style) (text : Text) : Text :=
  style.quote ++ style.writeChars text ++ style.quote

@[simp] theorem writeChars_nil (style : Style) : style.writeChars [] = [] := rfl

@[simp] theorem writeChars_cons (style : Style) (c : Char) (text : Text) :
    style.writeChars (c :: text) = style.writeChar c ++ style.writeChars text := rfl

end Style

namespace Token

/-- A quote opens whether or not a word has begun before it. -/
theorem scan_quote (style : Style) (begun : Option Text) (rest : Text)
    (quoted : style ≠ .escaped) :
    scan .bare begun (style.quote ++ rest) =
      scan style.quoting (extend begun style.quote) rest := by
  cases style with
  | single => rw [Style.quote, List.singleton_append, scan] <;> first | rfl | simp
  | double => rw [Style.quote, List.singleton_append, scan] <;> first | rfl | simp
  | escaped => exact absurd rfl quoted

/-- The closing quote is part of the word. -/
theorem scan_closeQuote (style : Style) (raw rest : Text) :
    scan style.quoting (some raw) (style.quote ++ rest) =
      scan .bare (some (raw ++ style.quote)) rest := by
  cases style with
  | single => rw [Style.quote, Style.quoting, List.singleton_append, scan]; rfl
  | double =>
      rw [Style.quote, Style.quoting, List.singleton_append, scan]
      · rfl
      · simp
  | escaped => rw [Style.quote, Style.quoting, List.nil_append, List.append_nil]

/-- A character between the quotes is taken into the word, and they stay open. -/
theorem scan_writeChar (style : Style) (raw : Text) (c : Char) (rest : Text) :
    scan style.quoting (some raw) (style.writeChar c ++ rest) =
      scan style.quoting (some (raw ++ style.writeChar c)) rest := by
  cases style with
  | single =>
      by_cases isQuote : c = '\''
      · rw [Style.quoting, Style.writeChar, if_pos isQuote]
        have solid : isBlank '\'' = false := by decide
        simp [scan, extend, solid]
      · rw [Style.quoting, Style.writeChar, if_neg isQuote, List.singleton_append, scan,
          if_neg isQuote]
        rfl
  | double =>
      by_cases special : needsEscape c = true
      · rw [Style.quoting, Style.writeChar, if_pos special]
        rfl
      · have plain : c ≠ '"' ∧ c ≠ '\\' := by
          simp only [needsEscape, Bool.or_eq_true, decide_eq_true_eq, not_or] at special
          exact ⟨special.1.1.1, special.1.1.2⟩
        rw [Style.quoting, Style.writeChar, if_neg special, List.singleton_append, scan,
          if_neg plain.1]
        · rfl
        · exact fun _ _ backslash _ => plain.2 backslash
  | escaped => rfl

/-- What stands between the quotes is taken into the word character by character. -/
theorem scan_writeChars (style : Style) (raw text rest : Text) :
    scan style.quoting (some raw) (style.writeChars text ++ rest) =
      scan style.quoting (some (raw ++ style.writeChars text)) rest := by
  induction text generalizing raw with
  | nil => rw [Style.writeChars_nil, List.nil_append, List.append_nil]
  | cons c text ih =>
      rw [Style.writeChars_cons, List.append_assoc, scan_writeChar, ih, List.append_assoc]

/-- A text in quotes is taken into the word that has begun, or begins one. -/
theorem scan_write_of_quoted {style : Style} (begun : Option Text) (text rest : Text)
    (quoted : style ≠ .escaped) :
    scan .bare begun (style.write text ++ rest) =
      scan .bare (some (begun.getD [] ++ style.write text)) rest := by
  rw [Style.write, List.append_assoc, List.append_assoc, scan_quote style begun _ quoted,
    extend, scan_writeChars, scan_closeQuote]
  simp only [List.append_assoc]

end Token

/-- The separator that a text is if it is written as a backslash before that glyph. -/
def Style.loneGlyph? : Style → Text → Option Separator
  | .escaped, ['|'] => some .pipe
  | .escaped, [';'] => some .semi
  | _, _ => none

/-- The tokens of a text that is a word of its own. -/
def Style.tokens (style : Style) (text : Text) : List Token :=
  match style.loneGlyph? text with
  | some s => [.backslash, .separator s]
  | none => [.word (style.write text)]

/-- A lone glyph is a single character, written without quotes. -/
theorem Style.eq_of_loneGlyph? {style : Style} {text : Text} {s : Separator}
    (lone : style.loneGlyph? text = some s) :
    style = .escaped ∧ text = s.glyph ∧ text.tail = [] := by
  unfold loneGlyph? at lone
  split at lone
  · cases lone; exact ⟨rfl, rfl, rfl⟩
  · cases lone; exact ⟨rfl, rfl, rfl⟩
  · cases lone

namespace Token

/-- Before a character that is no glyph, only `|` and `;` begin a separator; it stands free
if the word ends behind it. -/
theorem freeStanding_cons_iff {c : Char} {rest : Text}
    (behind : ∀ next later, rest = next :: later → next ≠ '|' ∧ next ≠ '&') :
    freeStanding (c :: rest) = true ↔ (c = '|' ∨ c = ';') ∧ EndsWord rest := by
  have single (s : Separator) (glyph : s.glyph = [c])
      (starts : Separator.atStart? (c :: rest) = some s) :
      freeStanding (c :: rest) = true ↔ EndsWord rest := by
    simp only [freeStanding, starts, glyph]
    cases rest with
    | nil => exact ⟨fun _ => trivial, fun _ => rfl⟩
    | cons next later => exact Iff.rfl
  by_cases isPipe : c = '|'
  · subst isPipe
    have starts : Separator.atStart? ('|' :: rest) = some .pipe := by
      rw [Separator.atStart?]
      rintro later rfl
      exact (behind _ later rfl).1 rfl
    simp [single .pipe rfl starts]
  · by_cases isSemi : c = ';'
    · subst isSemi
      simp [single .semi rfl rfl]
    · have starts : Separator.atStart? (c :: rest) = none := by
        rw [Separator.atStart?]
        · exact fun later same => isPipe (List.cons.inj same).1
        · exact fun later same => (behind _ later (List.cons.inj same).2).2 rfl
        · exact fun later same => isPipe (List.cons.inj same).1
        · exact fun later same => isSemi (List.cons.inj same).1
      rw [freeStanding, starts]
      simp [isPipe, isSemi]

/-- A backslash is taken for a token of its own exactly before a glyph that is all of the
text: another character would have a backslash in front. -/
theorem freeStanding_escaped (c : Char) (text : Text) {rest : Text} (ends : EndsWord rest) :
    freeStanding (c :: (Style.escaped.writeChars text ++ rest)) =
      (Style.escaped.loneGlyph? (c :: text)).isSome := by
  rw [Bool.eq_iff_iff]
  cases text with
  | nil =>
      rw [Style.writeChars_nil, List.nil_append, freeStanding_cons_iff]
      · unfold Style.loneGlyph?
        split <;> simp_all
      · rintro next later rfl
        exact ⟨ne_of_isBlank ends (by decide), ne_of_isBlank ends (by decide)⟩
  | cons d text =>
      rw [Style.writeChars_cons, List.append_assoc, Style.writeChar, List.cons_append,
        freeStanding_cons_iff]
      · have goesOn : ¬ EndsWord ('\\' :: ([d] ++ (Style.escaped.writeChars text ++ rest))) :=
          Bool.false_ne_true
        have notLone : Style.escaped.loneGlyph? (c :: d :: text) = none := by
          simp [Style.loneGlyph?]
        rw [notLone]
        exact ⟨fun free => absurd free.2 goesOn, fun lone => absurd lone Bool.false_ne_true⟩
      · rintro next later same
        obtain rfl : '\\' = next := (List.cons.inj same).1
        decide

/-- A text in any style is a word of its own, or its lone glyph. -/
theorem scansTo_write (style : Style) {text : Text} (writable : style = .escaped → text ≠ []) :
    ScansTo (style.write text) (style.tokens text) := by
  intro rest ends
  by_cases quoted : style = .escaped
  · subst quoted
    cases text with
    | nil => exact absurd rfl (writable rfl)
    | cons c text =>
        have written : Style.escaped.write (c :: text) =
            '\\' :: c :: Style.escaped.writeChars text := by
          simp [Style.write, Style.quote, Style.writeChar]
        rw [Style.tokens, written, List.cons_append, List.cons_append, scan,
          freeStanding_escaped c text ends]
        cases lone : Style.escaped.loneGlyph? (c :: text) with
        | some s =>
            obtain ⟨-, glyph, rfl : text = []⟩ := Style.eq_of_loneGlyph? lone
            have separated := scansTo_glyph s rest ends
            rw [← glyph] at separated
            show (scan .bare none ([c] ++ rest)).map (.backslash :: ·) = _
            rw [separated]
            cases scan .bare none rest <;> rfl
        | none =>
            show scan Style.escaped.quoting (some ['\\', c])
              (Style.escaped.writeChars text ++ rest) = _
            rw [scan_writeChars]
            exact scan_of_endsWord ends
  · have word : style.tokens text = [.word (style.write text)] := by
      unfold Style.tokens
      split
      · next lone => exact absurd (Style.eq_of_loneGlyph? lone).1 quoted
      · rfl
    rw [scan_write_of_quoted none text rest quoted, scan_of_endsWord ends, word]
    rfl

end Token

namespace Word

variable {quoting : Quoting} {c : Char} (rest : Text)

/-- A backslash is dropped before every character outside quotes, and before the few that
it protects inside double quotes. -/
theorem unquoteFrom_backslash (notSingle : quoting ≠ .single)
    (taken : quoting = .bare ∨ isEscapable c = true) :
    unquoteFrom quoting ('\\' :: c :: rest) = (unquoteFrom quoting rest).map (.literal c :: ·) := by
  rw [unquoteFrom, if_pos rfl, if_pos (by simpa using taken)]
  exact notSingle

/-- Most characters stand for themselves. -/
theorem unquoteFrom_plain (notSingle : quoting ≠ .single) (plain : needsEscape c = false)
    (protects : c = '\'' → quoting ≠ .bare) :
    unquoteFrom quoting (c :: rest) = (unquoteFrom quoting rest).map (.literal c :: ·) := by
  simp only [needsEscape, Bool.or_eq_false_iff, decide_eq_false_iff_not] at plain
  obtain ⟨⟨⟨notDouble, notBackslash⟩, notDollar⟩, -⟩ := plain
  rw [unquoteFrom.eq_def]
  cases quoting with
  | single => exact absurd rfl notSingle
  | bare =>
      have notQuote : c ≠ '\'' := fun isQuote => protects isQuote rfl
      simp [notBackslash, notDollar, notDouble, notQuote]
  | double => simp [notBackslash, notDollar, notDouble]

/-- Inside single quotes every other character stands for itself. -/
theorem unquoteFrom_single (isOther : c ≠ '\'') :
    unquoteFrom .single (c :: rest) = (unquoteFrom .single rest).map (.literal c :: ·) := by
  rw [unquoteFrom, if_neg isOther]

/-- The opening quote is dropped. -/
theorem unquoteFrom_quote (style : Style) :
    unquoteFrom .bare (style.quote ++ rest) = unquoteFrom style.quoting rest := by
  cases style with
  | single =>
      rw [Style.quote, List.singleton_append, unquoteFrom.eq_def]
      simp [Style.quoting]
  | double =>
      rw [Style.quote, List.singleton_append, unquoteFrom.eq_def]
      simp [Style.quoting]
  | escaped => rfl

/-- The closing quote is dropped. -/
theorem unquoteFrom_closeQuote (style : Style) :
    unquoteFrom style.quoting (style.quote ++ rest) = unquoteFrom .bare rest := by
  cases style with
  | single => rw [Style.quoting, Style.quote, List.singleton_append, unquoteFrom, if_pos rfl]
  | double =>
      rw [Style.quoting, Style.quote, List.singleton_append, unquoteFrom.eq_def]
      simp
  | escaped => rfl

/-- A character between the quotes is read back as itself, and they stay open. -/
theorem unquoteFrom_writeChar (style : Style) (c : Char) :
    unquoteFrom style.quoting (style.writeChar c ++ rest) =
      (unquoteFrom style.quoting rest).map (.literal c :: ·) := by
  cases style with
  | single =>
      by_cases isQuote : c = '\''
      · rw [Style.quoting, Style.writeChar, if_pos isQuote, isQuote]
        calc unquoteFrom .single ('\'' :: '\\' :: '\'' :: '\'' :: rest)
            = unquoteFrom .bare ('\\' :: '\'' :: '\'' :: rest) :=
              unquoteFrom_closeQuote _ .single
          _ = (unquoteFrom .bare ('\'' :: rest)).map (.literal '\'' :: ·) :=
              unquoteFrom_backslash _ (by decide) (.inl rfl)
          _ = (unquoteFrom .single rest).map (.literal '\'' :: ·) :=
              congrArg _ (unquoteFrom_quote rest .single)
      · rw [Style.quoting, Style.writeChar, if_neg isQuote, List.singleton_append,
          unquoteFrom_single rest isQuote]
  | double =>
      by_cases special : needsEscape c = true
      · have escapable : isEscapable c = true := by
          simp only [needsEscape, Bool.or_eq_true, decide_eq_true_eq] at special
          rcases special with ((rfl | rfl) | rfl) | rfl <;> rfl
        rw [Style.quoting, Style.writeChar, if_pos special]
        exact unquoteFrom_backslash rest (by decide) (.inr escapable)
      · rw [Style.quoting, Style.writeChar, if_neg special, List.singleton_append]
        exact unquoteFrom_plain rest (by decide) (by simpa using special) fun _ => by decide
  | escaped => exact unquoteFrom_backslash rest (by decide) (.inl rfl)

/-- What stands between the quotes is read back as the text itself. -/
theorem unquoteFrom_writeChars (style : Style) (text : Text) :
    unquoteFrom style.quoting (style.writeChars text ++ rest) =
      (unquoteFrom style.quoting rest).map (ofText text ++ ·) := by
  induction text with
  | nil =>
      rw [Style.writeChars_nil, List.nil_append]
      cases unquoteFrom style.quoting rest <;> rfl
  | cons c text ih =>
      rw [Style.writeChars_cons, List.append_assoc, unquoteFrom_writeChar, ih]
      cases unquoteFrom style.quoting rest <;> rfl

/-- A text in any style is read back as the text itself, whatever stands behind it. -/
theorem unquoteFrom_write (style : Style) (text : Text) :
    unquoteFrom .bare (style.write text ++ rest) =
      (unquoteFrom .bare rest).map (ofText text ++ ·) := by
  rw [Style.write, List.append_assoc, List.append_assoc, unquoteFrom_quote,
    unquoteFrom_writeChars, unquoteFrom_closeQuote]

/-- A text in any style is a word that is the text itself and refers to nothing. -/
theorem unquote_write (style : Style) (text : Text) :
    unquote (style.write text) = .ok (ofText text) := by
  have read := unquoteFrom_write [] style text
  rw [List.append_nil] at read
  rw [unquote, read, unquoteFrom]
  show Except.ok (ofText text ++ []) = _
  rw [List.append_nil]

end Word

end Errand.Shell
