/-
# Words that refer to variables

Texts in quotes are not all that a line is made of. A word may be plain characters, it may assign
a quoted value to a name, and it may refer to a variable. Between blanks each of these is one word,
whatever stands in the line behind it, and so the words that were written are the words that are
read. An assignment keeps its value as literal text, and a reference stays a reference, also inside
double quotes.
-/
import Errand.Proofs.Shell.Scanned
import Errand.Proofs.Shell.Unquoting
import Errand.Proofs.Shell.Written

namespace Errand.Shell

/-- The name of a variable: a letter or `_`, and behind it letters, digits and `_`. -/
def IsName : Text → Prop
  | [] => False
  | c :: rest => (c = '_' ∨ c.isAlpha = true) ∧ ∀ d ∈ rest, d = '_' ∨ d.isAlphanum = true

/-- A way to refer to a variable. -/
inductive ReferenceStyle where
  /-- The name behind a dollar sign. -/
  | plain
  /-- The name in braces behind a dollar sign. -/
  | braced
  /-- A plain reference in double quotes. -/
  | quoted
  deriving DecidableEq, Repr

namespace ReferenceStyle

/-- A reference as it stands in a line. -/
def write : ReferenceStyle → Text → Text
  | .plain, name => '$' :: name
  | .braced, name => '$' :: '{' :: (name ++ ['}'])
  | .quoted, name => '"' :: '$' :: (name ++ ['"'])

/-- Whether the name stands in braces. -/
def isBraced : ReferenceStyle → Bool
  | .braced => true
  | .plain | .quoted => false

end ReferenceStyle

/-! ## Ordinary characters -/

/-- The characters that quote, escape, cut a line or begin a comment. -/
def specialChars : List Char := ['\\', '\'', '"', '|', '&', ';', '#']

/-- A character that stands for itself wherever it stands outside quotes. -/
def isOrdinary (c : Char) : Bool := !(blankChars ++ specialChars).contains c

theorem not_mem_of_isOrdinary {c : Char} (ordinary : isOrdinary c = true) :
    c ∉ blankChars ++ specialChars := by
  simpa [isOrdinary] using ordinary

theorem ne_of_isOrdinary {c special : Char} (ordinary : isOrdinary c = true)
    (isSpecial : special ∈ specialChars) : c ≠ special := by
  rintro rfl
  exact not_mem_of_isOrdinary ordinary (List.mem_append_right _ isSpecial)

theorem isOrdinary_of_isNameChar {c : Char} (inName : isNameChar c = true) :
    isOrdinary c = true := by
  have inNoName : ∀ d ∈ blankChars ++ specialChars, ¬ isNameChar d = true :=
    List.any_eq_false.mp (by decide)
  rw [isOrdinary, Bool.not_eq_true', List.contains_eq_mem, decide_eq_false_iff_not]
  intro member
  exact inNoName c member inName

namespace IsName

variable {name : Text}

/-- A name is read as one. -/
theorem exists_cons (named : IsName name) : ∃ c rest, name = c :: rest ∧
    isNameStart c = true ∧ ∀ d ∈ rest, isNameChar d = true := by
  cases name with
  | nil => exact named.elim
  | cons c rest =>
      obtain ⟨start, behind⟩ := named
      refine ⟨c, rest, rfl, by simpa [isNameStart] using start, fun d member => ?_⟩
      have allowed := behind d member
      simp only [Char.isAlphanum, Bool.or_eq_true] at allowed
      simpa [isNameChar, isNameStart, or_assoc] using allowed

theorem isNameChar_of_mem (named : IsName name) : ∀ c ∈ name, isNameChar c = true := by
  obtain ⟨c, rest, rfl, start, behind⟩ := named.exists_cons
  refine List.forall_mem_cons.mpr ⟨?_, behind⟩
  rw [isNameChar, start]
  rfl

theorem not_mem (named : IsName name) {c : Char} (noPart : isNameChar c = false) : c ∉ name := by
  intro member
  rw [named.isNameChar_of_mem c member] at noPart
  cases noPart

/-- The first `=` of an assignment is the one behind its name. -/
theorem cut?_assignment (named : IsName name) (value : Text) :
    Text.cut? '=' (name ++ '=' :: value) = some (name, value) :=
  Text.cut?_eq_some_iff.mpr ⟨rfl, named.not_mem (by decide)⟩

/-- Before a character that goes on with no name, the name is all that is taken. -/
theorem name?_append (named : IsName name) {rest : Text}
    (stops : ∀ c ∈ rest.head?, isNameChar c = false) :
    name? (name ++ rest) = some (name, rest) := by
  obtain ⟨c, letters, rfl, start, behind⟩ := named.exists_cons
  rw [List.cons_append, name?, if_pos start, List.takeWhile_append_of_pos behind,
    List.dropWhile_append_of_pos behind]
  cases rest with
  | nil => simp
  | cons d rest => simp [stops d rfl]

/-- A name behind a dollar sign makes a reference. -/
theorem reference?_append (named : IsName name) {rest : Text}
    (stops : ∀ c ∈ rest.head?, isNameChar c = false) :
    reference? (name ++ rest) = some (.reference name false, rest) := by
  have taken := named.name?_append stops
  obtain ⟨c, letters, rfl, start, -⟩ := named.exists_cons
  rw [List.cons_append] at taken ⊢
  rw [reference?, taken]
  · rfl
  · rintro inBraces same
    obtain rfl := (List.cons.inj same).1
    cases start

/-- So does a name in braces. -/
theorem reference?_braced (named : IsName name) (rest : Text) :
    reference? ('{' :: (name ++ '}' :: rest)) = some (.reference name true, rest) := by
  have closes : ∀ c ∈ ('}' :: rest).head?, isNameChar c = false := by
    rintro c ⟨⟩
    decide
  simp only [reference?, named.name?_append closes]

end IsName

/-! ## Words between blanks -/

namespace Token

/-- An ordinary character is plain in front of any text. -/
theorem isPlain_of_isOrdinary {c : Char} (ordinary : isOrdinary c = true) (rest : Text) :
    IsPlain c rest where
  solid := by
    rw [isBlank, List.contains_eq_mem, decide_eq_false_iff_not]
    exact fun blank => not_mem_of_isOrdinary ordinary (List.mem_append_left _ blank)
  unescaping := ne_of_isOrdinary ordinary (by decide)
  unquoting := ⟨ne_of_isOrdinary ordinary (by decide), ne_of_isOrdinary ordinary (by decide)⟩
  uncut := by
    have notPipe : c ≠ '|' := ne_of_isOrdinary ordinary (by decide)
    have notAmpersand : c ≠ '&' := ne_of_isOrdinary ordinary (by decide)
    have notSemi : c ≠ ';' := ne_of_isOrdinary ordinary (by decide)
    unfold Separator.atStart?
    split <;> simp_all

/-- Ordinary characters are taken into the word that has begun. -/
theorem scan_ordinary {text : Text} (ordinary : ∀ c ∈ text, isOrdinary c = true)
    (raw rest : Text) :
    scan .bare (some raw) (text ++ rest) = scan .bare (some (raw ++ text)) rest := by
  induction text generalizing raw with
  | nil => rw [List.nil_append, List.append_nil]
  | cons c text ih =>
      obtain ⟨here, behind⟩ := List.forall_mem_cons.mp ordinary
      rw [List.cons_append, scan_plain (isPlain_of_isOrdinary here _) (by simp), extend,
        Option.getD_some, ih behind, List.append_assoc, List.singleton_append]

/-- They begin a word where none has begun. -/
theorem scan_ordinary_start {text : Text} (nonempty : text ≠ [])
    (ordinary : ∀ c ∈ text, isOrdinary c = true) (rest : Text) :
    scan .bare none (text ++ rest) = scan .bare (some text) rest := by
  obtain ⟨c, text, rfl⟩ := List.exists_cons_of_ne_nil nonempty
  obtain ⟨here, behind⟩ := List.forall_mem_cons.mp ordinary
  have uncommented : c ≠ '#' := ne_of_isOrdinary here (by decide)
  rw [List.cons_append,
    scan_plain (isPlain_of_isOrdinary here _) fun hash => (uncommented hash).elim, extend,
    Option.getD_none, List.nil_append, scan_ordinary behind, List.singleton_append]

/-- Inside double quotes all characters are taken into the word but `"` and backslashes. -/
theorem scan_double {text : Text} (protects : ∀ c ∈ text, c ≠ '"' ∧ c ≠ '\\') (raw rest : Text) :
    scan .double (some raw) (text ++ rest) = scan .double (some (raw ++ text)) rest := by
  induction text generalizing raw with
  | nil => rw [List.nil_append, List.append_nil]
  | cons c text ih =>
      obtain ⟨⟨notQuote, notBackslash⟩, behind⟩ := List.forall_mem_cons.mp protects
      rw [List.cons_append, scan, if_neg notQuote, extend, Option.getD_some, ih behind,
        List.append_assoc, List.singleton_append]
      exact fun _ _ isBackslash _ => notBackslash isBackslash

/-- A text in any style is taken into the word that has begun. -/
theorem scan_write (style : Style) (raw text rest : Text) :
    scan .bare (some raw) (style.write text ++ rest) =
      scan .bare (some (raw ++ style.write text)) rest := by
  by_cases escaped : style = .escaped
  · subst escaped
    have written : Style.escaped.write text = Style.escaped.writeChars text := by
      simp [Style.write, Style.quote]
    rw [written]
    exact scan_writeChars .escaped raw text rest
  · rw [scan_write_of_quoted (some raw) text rest escaped, Option.getD_some]

end Token

/-- Between blanks a text is this one word of a command, whatever stands in the line behind it. -/
def Spells (text : Text) (word : Word) : Prop :=
  ∃ tokens item, Token.ScansTo text tokens ∧
    (∀ more, Item.resolve 0 (tokens ++ more) = item :: Item.resolve 0 more) ∧ Item.Reads item word

/-- A text that is one token spells the word that the token is unquoted to. -/
theorem spells_of_unquote {raw : Text} {word : Word} (scans : Token.ScansTo raw [.word raw])
    (unquotes : Word.unquoteFrom .bare raw = .ok word) : Spells raw word := by
  refine ⟨_, .word raw, scans, fun _ => rfl, .word ?_⟩
  rw [Word.unquote, unquotes]
  rfl

/-- A text in any style spells itself. -/
theorem spells_write (style : Style) {text : Text} (writable : style = .escaped → text ≠ []) :
    Spells (style.write text) (Word.ofText text) := by
  let argument : Argument := ⟨text, style, writable⟩
  refine ⟨_, argument.item, Token.scansTo_write style writable, argument.resolve_tokens, ?_⟩
  rw [Argument.item]
  split
  · exact .literal text
  · exact .word (Word.unquote_write style text)

/-- Ordinary characters without a dollar sign are unquoted to themselves. -/
theorem Word.unquoteFrom_text {text : Text} (ordinary : ∀ c ∈ text, isOrdinary c = true)
    (noDollar : '$' ∉ text) (rest : Text) :
    unquoteFrom .bare (text ++ rest) = (unquoteFrom .bare rest).map (ofText text ++ ·) := by
  induction text with
  | nil =>
      rw [List.nil_append]
      cases unquoteFrom .bare rest <;> rfl
  | cons c text ih =>
      obtain ⟨here, behind⟩ := List.forall_mem_cons.mp ordinary
      rw [List.mem_cons, not_or] at noDollar
      have plain : c ≠ '\\' ∧ c ≠ '"' ∧ c ≠ '$' :=
        ⟨ne_of_isOrdinary here (by decide), ne_of_isOrdinary here (by decide), Ne.symm noDollar.1⟩
      rw [List.cons_append, unquoteFrom_ordinary _ (by decide) plain
        fun quote => absurd quote (ne_of_isOrdinary here (by decide)), ih behind noDollar.2]
      cases unquoteFrom .bare rest <;> rfl

/-- Ordinary characters with a quoted text behind them spell both in a row, as literal text. -/
theorem spells_append_write {text : Text} (nonempty : text ≠ [])
    (ordinary : ∀ c ∈ text, isOrdinary c = true) (noDollar : '$' ∉ text) (style : Style)
    (quoted : Text) : Spells (text ++ style.write quoted) (Word.ofText (text ++ quoted)) := by
  refine spells_of_unquote (fun rest ends => ?_) ?_
  · rw [List.append_assoc, Token.scan_ordinary_start nonempty ordinary, Token.scan_write]
    exact Token.scan_of_endsWord ends
  · have read := Word.unquoteFrom_write [] style quoted
    rw [List.append_nil] at read
    rw [Word.unquoteFrom_text ordinary noDollar, read, Word.unquoteFrom]
    simp [Except.map, Word.ofText]

/-- Ordinary characters spell themselves. -/
theorem spells_text {text : Text} (nonempty : text ≠ [])
    (ordinary : ∀ c ∈ text, isOrdinary c = true) (noDollar : '$' ∉ text) :
    Spells text (Word.ofText text) := by
  have empty : Style.escaped.write [] = [] := rfl
  have spelled := spells_append_write nonempty ordinary noDollar .escaped []
  rwa [empty, List.append_nil] at spelled

namespace IsName

variable {name : Text}

/-- An assignment spells its name and its value as literal text, however the value is quoted. -/
theorem spells_assignment (named : IsName name) (style : Style) (value : Text) :
    Spells (name ++ '=' :: style.write value) (Word.ofText (name ++ '=' :: value)) := by
  have nonempty : name ++ ['='] ≠ [] := by simp
  have ordinary : ∀ c ∈ name ++ ['='], isOrdinary c = true := by
    simp only [List.forall_mem_append, List.forall_mem_singleton]
    exact ⟨fun c member => isOrdinary_of_isNameChar (named.isNameChar_of_mem c member), by decide⟩
  have noDollar : '$' ∉ name ++ ['='] := by
    have inName : '$' ∉ name := named.not_mem (by decide)
    simpa using inName
  have spelled := spells_append_write nonempty ordinary noDollar style value
  simpa using spelled

/-- A reference in any style spells the reference, and nothing else. -/
theorem spells_reference (named : IsName name) (style : ReferenceStyle) :
    Spells (style.write name) [.reference name style.isBraced] := by
  have inName := fun c member => isOrdinary_of_isNameChar (named.isNameChar_of_mem c member)
  have empty : Word.unquoteFrom .bare [] = .ok [] := by rw [Word.unquoteFrom]
  cases style with
  | plain =>
      refine spells_of_unquote (fun rest ends => ?_) ?_
      · have ordinary : ∀ c ∈ '$' :: name, isOrdinary c = true :=
          List.forall_mem_cons.mpr ⟨by decide, inName⟩
        rw [ReferenceStyle.write, Token.scan_ordinary_start (List.cons_ne_nil _ _) ordinary]
        exact Token.scan_of_endsWord ends
      · have stops : ∀ c ∈ ([] : Text).head?, isNameChar c = false := by simp
        have found := named.reference?_append stops
        rw [List.append_nil] at found
        rw [ReferenceStyle.write, Word.unquoteFrom_reference (by decide) found, empty]
        rfl
  | braced =>
      refine spells_of_unquote (fun rest ends => ?_) ?_
      · have ordinary : ∀ c ∈ '$' :: '{' :: (name ++ ['}']), isOrdinary c = true := by
          simp only [List.forall_mem_cons, List.forall_mem_append]
          exact ⟨by decide, by decide, inName, by decide, List.forall_mem_nil _⟩
        rw [ReferenceStyle.write, Token.scan_ordinary_start (List.cons_ne_nil _ _) ordinary]
        exact Token.scan_of_endsWord ends
      · rw [ReferenceStyle.write,
          Word.unquoteFrom_reference (by decide) (named.reference?_braced []), empty]
        rfl
  | quoted =>
      have written : ReferenceStyle.quoted.write name = '"' :: ('$' :: name ++ ['"']) := rfl
      rw [written]
      refine spells_of_unquote (fun rest ends => ?_) ?_
      · have protects : ∀ c ∈ '$' :: name, c ≠ '"' ∧ c ≠ '\\' :=
          List.forall_mem_cons.mpr ⟨by decide, fun c member =>
            ⟨ne_of_isOrdinary (inName c member) (by decide),
              ne_of_isOrdinary (inName c member) (by decide)⟩⟩
        calc Token.scan .bare none (['"'] ++ ('$' :: name ++ ['"']) ++ rest)
            = Token.scan .double (some ['"']) ('$' :: name ++ (['"'] ++ rest)) := by
              rw [List.append_assoc, List.append_assoc]
              exact Token.scan_quote .double none _ (by decide)
          _ = Token.scan .double (some (['"'] ++ '$' :: name)) (['"'] ++ rest) :=
              Token.scan_double protects _ _
          _ = Token.scan .bare (some (['"'] ++ '$' :: name ++ ['"'])) rest :=
              Token.scan_closeQuote .double _ _
          _ = (Token.scan .bare none rest).map (.word ('"' :: ('$' :: name ++ ['"'])) :: ·) :=
              Token.scan_of_endsWord ends
      · have found : reference? (name ++ ['"']) = some (.reference name false, ['"']) :=
          named.reference?_append (by simp; decide)
        calc Word.unquoteFrom .bare (['"'] ++ ('$' :: name ++ ['"']))
            = Word.unquoteFrom .double ('$' :: (name ++ ['"'])) :=
              Word.unquoteFrom_quote _ .double
          _ = (Word.unquoteFrom .double ['"']).map (.reference name false :: ·) :=
              Word.unquoteFrom_reference (by decide) found
          _ = (Word.unquoteFrom .bare []).map (.reference name false :: ·) :=
              congrArg _ (Word.unquoteFrom_closeQuote [] .double)
          _ = .ok [.reference name false] := by rw [empty]; rfl

end IsName

/-! ## Lines of such words -/

/-- Words with spaces between them are the words of one command. -/
theorem exists_items_of_spells {texts : List Text} {words : List Word}
    (spelled : List.Forall₂ Spells texts words) (nonempty : texts ≠ []) :
    ∃ tokens items, Token.ScansTo (Text.join [' '] texts) tokens ∧
      (∀ more, Item.resolve 0 (tokens ++ more) = items ++ Item.resolve 0 more) ∧
      List.Forall₂ Item.Reads items words := by
  induction spelled with
  | nil => exact absurd rfl nonempty
  | @cons text word texts words here behind ih =>
      obtain ⟨tokens, item, scans, resolves, reads⟩ := here
      cases behind with
      | nil => exact ⟨tokens, [item], scans, resolves, .cons reads .nil⟩
      | cons next later =>
          obtain ⟨more, items, scansMore, resolvesMore, readsMore⟩ := ih (List.cons_ne_nil _ _)
          refine ⟨tokens ++ more, item :: items, ?_, fun others => ?_, .cons reads readsMore⟩
          · have spaced := scans.spaced scansMore
            rw [Text.join, List.append_assoc, List.singleton_append]
            · exact spaced
            · exact List.cons_ne_nil _ _
          · rw [List.append_assoc, resolves, resolvesMore]
            rfl

/-- A line of words with one separator among them is split into two commands of these words. The
words keep it from being a line that holds separators alone. -/
theorem split_of_spells {texts others : List Text} {words otherWords : List Word} (s : Separator)
    (spelled : List.Forall₂ Spells texts words)
    (spelledOthers : List.Forall₂ Spells others otherWords) (nonempty : texts ≠ [])
    (nonemptyOthers : others ≠ []) :
    Pipeline.split (Text.join [' '] texts ++ ' ' :: (s.glyph ++ ' ' :: Text.join [' '] others)) =
      .ok [⟨⟨words⟩, false⟩, ⟨⟨otherWords⟩, s == .pipe⟩] := by
  obtain ⟨tokens, items, scans, resolves, reads⟩ := exists_items_of_spells spelled nonempty
  obtain ⟨more, otherItems, scansOthers, resolvesOthers, readsOthers⟩ :=
    exists_items_of_spells spelledOthers nonemptyOthers
  have lexed := (scans.spaced ((Token.scansTo_glyph s).spaced scansOthers)).lex
  have inItems : Item.ofTokens (tokens ++ ([.separator s] ++ more)) =
      items ++ .cut s :: otherItems := by
    have readOthers := resolvesOthers []
    rw [List.append_nil, Item.resolve, List.replicate_zero, List.append_nil] at readOthers
    rw [Item.ofTokens, resolves, List.singleton_append, Item.resolve, readOthers]
  obtain ⟨text, texts, rfl⟩ := List.exists_cons_of_ne_nil nonempty
  obtain ⟨other, others, rfl⟩ := List.exists_cons_of_ne_nil nonemptyOthers
  obtain ⟨word, words, -, -, rfl⟩ := List.forall₂_cons_left_iff.mp spelled
  obtain ⟨otherWord, otherWords, -, -, rfl⟩ := List.forall₂_cons_left_iff.mp spelledOthers
  obtain ⟨item, later, isItem, -, rfl⟩ := List.forall₂_cons_right_iff.mp reads
  have noCut : ∀ t, item ≠ .cut t := by
    rintro t rfl
    cases isItem
  have member : item ∈ Item.ofTokens (tokens ++ ([.separator s] ++ more)) := by
    rw [inItems]
    exact List.mem_append_left _ List.mem_cons_self
  rw [Pipeline.split_eq_group lexed member noCut, inItems, Pipeline.group_append_cut,
    Pipeline.group_of_reads reads]
  simp only [bind, Except.bind]
  rw [Pipeline.group_of_reads readsOthers]
  rfl

end Errand.Shell
