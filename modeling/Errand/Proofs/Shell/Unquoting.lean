/-
# The text of an unquoted word

References matter for substitution and not for the text. As far as the text goes, unquoting
removes quotes and backslashes and keeps every other character, the dollar signs and the names
behind them included, so it can be followed one character at a time.
-/
import Errand.Proofs.Shell.Quoting

namespace Errand.Shell

/-- A character of a name, or one of the braces around it. -/
def isReferenceChar (c : Char) : Bool := isNameChar c || c = '{' || c = '}'

/-- A name is taken from the front of the text. -/
theorem append_of_name? {text name after : Text} (found : name? text = some (name, after)) :
    text = name ++ after ∧ ∀ c ∈ name, isNameChar c = true := by
  cases text with
  | nil => cases found
  | cons c rest =>
      rw [name?] at found
      split at found
      · next starts =>
          cases found
          refine ⟨by rw [List.cons_append, List.takeWhile_append_dropWhile], ?_⟩
          rintro other member
          rcases List.mem_cons.mp member with rfl | inRest
          · rw [isNameChar, starts]
            rfl
          · exact List.all_eq_true.mp List.all_takeWhile other inRest
      · cases found

/-- A reference is taken from the front of the text, and its text is what was taken. -/
theorem append_of_reference? {text after : Text} {part : Part}
    (found : reference? text = some (part, after)) :
    ∃ body, text = body ++ after ∧ part.text = '$' :: body ∧
      ∀ c ∈ body, isReferenceChar c = true := by
  have nameChars {name : Text} (named : ∀ c ∈ name, isNameChar c = true) :
      ∀ c ∈ name, isReferenceChar c = true := by
    intro c member
    rw [isReferenceChar, named c member]
    rfl
  unfold reference? at found
  split at found
  · split at found
    · next rest name behind named =>
        cases found
        obtain ⟨rfl, letters⟩ := append_of_name? named
        refine ⟨'{' :: (name ++ ['}']), by simp, rfl, ?_⟩
        simp only [List.mem_cons, List.mem_append, List.not_mem_nil, or_false]
        rintro c (rfl | member | rfl)
        · rfl
        · exact nameChars letters c member
        · rfl
    · cases found
  · obtain ⟨⟨name, behind⟩, named, same⟩ := Option.map_eq_some_iff.mp found
    cases same
    obtain ⟨rfl, letters⟩ := append_of_name? named
    exact ⟨name, rfl, rfl, nameChars letters⟩

namespace Word

/-- The text of the rest of a raw word. -/
def textFrom (quoting : Quoting) (raw : Text) : Except Char Text :=
  (unquoteFrom quoting raw).map text

variable {quoting : Quoting} {c : Char} (rest : Text)

/-- A literal character of a word is the next character of its text. -/
theorem textFrom_of_literal {raw rest : Text} {later : Quoting}
    (unquotes : unquoteFrom quoting raw = (unquoteFrom later rest).map (.literal c :: ·)) :
    textFrom quoting raw = (textFrom later rest).map (c :: ·) := by
  rw [textFrom, unquotes, textFrom]
  cases unquoteFrom later rest <;> rfl

/-- Inside single quotes every other character is kept. -/
theorem textFrom_single (other : c ≠ '\'') :
    textFrom .single (c :: rest) = (textFrom .single rest).map (c :: ·) :=
  textFrom_of_literal (unquoteFrom_single rest other)

/-- An opening quote is dropped. -/
theorem textFrom_quote (style : Style) :
    textFrom .bare (style.quote ++ rest) = textFrom style.quoting rest := by
  rw [textFrom, unquoteFrom_quote, textFrom]

/-- A closing quote is dropped. -/
theorem textFrom_closeQuote (style : Style) :
    textFrom style.quoting (style.quote ++ rest) = textFrom .bare rest := by
  rw [textFrom, unquoteFrom_closeQuote, textFrom]

/-- A backslash is dropped where it protects the next character. -/
theorem textFrom_backslash (notSingle : quoting ≠ .single)
    (taken : quoting = .bare ∨ isEscapable c = true) :
    textFrom quoting ('\\' :: c :: rest) = (textFrom quoting rest).map (c :: ·) :=
  textFrom_of_literal (unquoteFrom_backslash rest notSingle taken)

/-- A character that no rule is about is kept. -/
theorem unquoteFrom_ordinary (notSingle : quoting ≠ .single)
    (ordinary : c ≠ '\\' ∧ c ≠ '"' ∧ c ≠ '$') (protects : c = '\'' → quoting ≠ .bare) :
    unquoteFrom quoting (c :: rest) = (unquoteFrom quoting rest).map (.literal c :: ·) := by
  obtain ⟨notBackslash, notDouble, notDollar⟩ := ordinary
  have notQuote : ¬ (c = '\'' ∧ quoting = .bare) := fun both => protects both.1 both.2
  rw [unquoteFrom.eq_def]
  cases quoting <;> simp_all

/-- The characters of a reference are kept. -/
theorem textFrom_referenceChars (notSingle : quoting ≠ .single) {body : Text}
    (chars : ∀ c ∈ body, isReferenceChar c = true) :
    textFrom quoting (body ++ rest) = (textFrom quoting rest).map (body ++ ·) := by
  induction body with
  | nil => simp only [List.nil_append]; cases textFrom quoting rest <;> rfl
  | cons c body ih =>
      obtain ⟨here, behind⟩ := List.forall_mem_cons.mp chars
      have apart (other : Char) (noPart : isReferenceChar other = false) : c ≠ other := by
        rintro rfl
        rw [here] at noPart
        cases noPart
      have ordinary : c ≠ '\\' ∧ c ≠ '"' ∧ c ≠ '$' :=
        ⟨apart _ (by decide), apart _ (by decide), apart _ (by decide)⟩
      have unquotes := unquoteFrom_ordinary (body ++ rest) notSingle ordinary
        fun quote => absurd quote (apart _ (by decide))
      rw [List.cons_append, textFrom_of_literal unquotes, ih behind]
      cases textFrom quoting rest <;> rfl

/-- A dollar sign and what it refers to are one part of a word. -/
theorem unquoteFrom_reference {rest after : Text} {part : Part} (notSingle : quoting ≠ .single)
    (found : reference? rest = some (part, after)) :
    unquoteFrom quoting ('$' :: rest) = (unquoteFrom quoting after).map (part :: ·) := by
  rw [unquoteFrom.eq_def]
  cases quoting with
  | single => exact absurd rfl notSingle
  | bare | double =>
      simp only [if_true, Char.reduceEq, if_false]
      split
      · next foundToo =>
          cases found.symm.trans foundToo
          rfl
      · next missing => cases found.symm.trans missing

/-- A dollar sign that refers to nothing is a literal character. -/
theorem unquoteFrom_loneDollar {rest : Text} (notSingle : quoting ≠ .single)
    (missing : reference? rest = none) :
    unquoteFrom quoting ('$' :: rest) = (unquoteFrom quoting rest).map (.literal '$' :: ·) := by
  rw [unquoteFrom.eq_def]
  cases quoting with
  | single => exact absurd rfl notSingle
  | bare | double =>
      simp only [if_true, Char.reduceEq, if_false]
      split
      · next found => cases missing.symm.trans found
      · rfl

/-- Whether it begins a reference or not, a dollar sign is kept, and so is what it refers to. -/
theorem textFrom_dollar (notSingle : quoting ≠ .single) :
    textFrom quoting ('$' :: rest) = (textFrom quoting rest).map ('$' :: ·) := by
  cases found : reference? rest with
  | none => exact textFrom_of_literal (unquoteFrom_loneDollar notSingle found)
  | some reference =>
      obtain ⟨part, after⟩ := reference
      have unquotes := unquoteFrom_reference notSingle found
      obtain ⟨body, rfl, spelled, chars⟩ := append_of_reference? found
      rw [textFrom_referenceChars after notSingle chars, textFrom, unquotes, textFrom]
      cases unquoteFrom quoting after with
      | error quote => rfl
      | ok word => simp [Except.map, text, spelled]

/-- Outside single quotes every character is kept but quotes and backslashes. -/
theorem textFrom_plain (notSingle : quoting ≠ .single) (plain : c ≠ '\\' ∧ c ≠ '"')
    (protects : c = '\'' → quoting ≠ .bare) :
    textFrom quoting (c :: rest) = (textFrom quoting rest).map (c :: ·) := by
  by_cases isDollar : c = '$'
  · rw [isDollar, textFrom_dollar rest notSingle]
  · exact textFrom_of_literal
      (unquoteFrom_ordinary rest notSingle ⟨plain.1, plain.2, isDollar⟩ protects)

/-- Inside double quotes a backslash that protects nothing is kept. -/
theorem textFrom_idleBackslash (idle : isEscapable c = false) :
    textFrom .double ('\\' :: c :: rest) = (textFrom .double rest).map (['\\', c] ++ ·) := by
  have unquotes : unquoteFrom .double ('\\' :: c :: rest) =
      (unquoteFrom .double (c :: rest)).map (.literal '\\' :: ·) := by
    rw [unquoteFrom.eq_def]
    simp [idle]
  have plain : c ≠ '\\' ∧ c ≠ '"' := by
    constructor <;> rintro rfl <;> cases idle
  rw [textFrom_of_literal unquotes, textFrom_plain rest (by decide) plain fun _ => by decide]
  cases textFrom .double rest <;> rfl

/-- A raw word that can be unquoted is unquoted from its start, outside quotes. -/
theorem unquoteFrom_of_unquote {raw : Text} {word : Word} (unquotes : unquote raw = .ok word) :
    unquoteFrom .bare raw = .ok word := by
  rw [unquote] at unquotes
  cases found : unquoteFrom .bare raw with
  | error quote =>
      rw [found] at unquotes
      cases unquotes
  | ok whole =>
      rw [found] at unquotes
      exact congrArg Except.ok (Except.ok.inj unquotes)

/-- A raw word with a text has a word with that text. -/
theorem exists_unquote_of_textFrom {raw written : Text}
    (reads : textFrom .bare raw = .ok written) :
    ∃ word, unquote raw = .ok word ∧ text word = written := by
  rw [textFrom] at reads
  rw [unquote]
  cases unquoted : unquoteFrom .bare raw with
  | error quote => rw [unquoted] at reads; cases reads
  | ok word =>
      rw [unquoted] at reads
      exact ⟨word, rfl, Except.ok.inj reads⟩

end Word

end Errand.Shell
