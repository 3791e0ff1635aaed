/-
# Two readings of a line

A line is read in two ways. Splitting into stages cuts it into raw words and separators first
and unquotes each word afterwards; plain splitting does both at once and knows no separators.
On a line that only holds what both of them know, the two agree: one fails if and only if the
other does, and a line without a cut is one stage whose arguments are the plainly split words.

Four things are outside what both know: blanks other than space, tab and newline, a `#` that
begins a word, a backslash before a newline, and a backslash at the end of the line. A comment
makes no difference, though, if the lines behind its own hold no word.
-/
import Errand.Proofs.Shell.Place
import Errand.Proofs.Shell.Splitting
import Errand.Proofs.Shell.Unquoting
import Mathlib.Data.List.Forall2

namespace Errand.Shell

namespace Words

/-! ## The plain splitter along the walk -/

/-- A place is where the plain splitter is that has these quotes open and this word begun. Behind
a separator it is inside a word where the walk is at a gap, never the other way round. -/
def StandsAt (place : Place) (word : Option Text) : Quoting → Prop
  | .bare => place.isBare = true ∧ (word = none → place = .gap)
  | .single => place = .single ∧ word ≠ none
  | .double => place = .double ∧ word ≠ none

theorem isBlank_of_isGap {c : Char} (gap : isGap c = true) : isBlank c = true := by
  simp only [isGap, Bool.or_eq_true, decide_eq_true_eq] at gap
  rcases gap with (rfl | rfl) | rfl <;> decide

theorem extend_ne_none (word : Option Text) (added : Text) : extend word added ≠ none :=
  Option.some_ne_none _

/-- Without a comment a line can be split plainly exactly if it ends outside quotes and not
behind a backslash. -/
theorem splitFrom_eq_none_iff {place : Place} {quoting : Quoting} {word : Option Text}
    {text : Text} (stands : StandsAt place word quoting)
    (uncommented : place.behind text ≠ .comment) :
    splitFrom quoting word text = none ↔ (place.behind text).isBare = false := by
  fun_induction splitFrom quoting word text generalizing place with
  | case1 word => simp [stands.1]
  | case2 word => simp [stands.1, Place.isBare]
  | case3 word => simp [stands.1, Place.isBare]
  | case4 word rest ih =>
      obtain ⟨rfl, begun⟩ := stands
      exact ih ⟨rfl, fun empty => absurd empty begun⟩ uncommented
  | case5 word c rest inside ih =>
      obtain ⟨rfl, -⟩ := stands
      rw [Place.behind_cons, Place.next, if_neg inside] at uncommented ⊢
      exact ih ⟨rfl, extend_ne_none word [c]⟩ uncommented
  | case6 word rest ih =>
      obtain ⟨rfl, begun⟩ := stands
      exact ih ⟨rfl, fun empty => absurd empty begun⟩ uncommented
  | case7 word =>
      obtain ⟨rfl, -⟩ := stands
      exact ⟨fun _ => rfl, fun _ => rfl⟩
  | case8 word next behind special _ ih =>
      obtain ⟨rfl, -⟩ := stands
      exact ih ⟨rfl, extend_ne_none word _⟩ uncommented
  | case9 word behind _ _ ih =>
      obtain ⟨rfl, begun⟩ := stands
      exact ih ⟨rfl, begun⟩ uncommented
  | case10 word next behind _ _ _ ih =>
      obtain ⟨rfl, -⟩ := stands
      exact ih ⟨rfl, extend_ne_none word _⟩ uncommented
  | case11 word c rest inside notBackslash ih =>
      obtain ⟨rfl, -⟩ := stands
      rw [Place.behind_cons, Place.next, if_neg inside, if_neg notBackslash] at uncommented ⊢
      exact ih ⟨rfl, extend_ne_none word _⟩ uncommented
  | case12 word c rest gap ih =>
      have white : isBlank c = true := isBlank_of_isGap gap
      have leads : place.next c = .gap := by
        rw [Place.next_of_isBare stands.1 (Token.ne_of_isBlank white (by decide))
          (Token.ne_of_isBlank white (by decide)), Place.outside, white]
        rfl
      rw [Place.behind_cons, leads] at uncommented ⊢
      rw [Option.map_eq_none_iff]
      exact ih ⟨rfl, fun _ => rfl⟩ uncommented
  | case13 word c rest _ hash ih =>
      simp only [Bool.and_eq_true, decide_eq_true_eq, Option.isNone_iff_eq_none] at hash
      obtain ⟨rfl, rfl⟩ := hash
      obtain rfl := stands.2 rfl
      exact absurd (Place.behind_comment rest) uncommented
  | case14 word rest _ _ ih =>
      rw [Place.behind_cons, Place.next_of_isBare stands.1 (by decide) (by decide)] at uncommented ⊢
      exact ih ⟨rfl, extend_ne_none word _⟩ uncommented
  | case15 word rest _ _ _ ih =>
      rw [Place.behind_cons, Place.next_of_isBare stands.1 (by decide) (by decide)] at uncommented ⊢
      exact ih ⟨rfl, extend_ne_none word _⟩ uncommented
  | case16 word =>
      rw [Place.behind_cons, Place.next_of_isBare stands.1 (by decide) (by decide)]
      exact ⟨fun _ => rfl, fun _ => rfl⟩
  | case17 word next behind _ _ _ _ ih =>
      rw [Place.behind_cons, Place.next_of_isBare stands.1 (by decide) (by decide)] at uncommented ⊢
      exact ih ⟨rfl, fun empty => absurd empty (extend_ne_none word _)⟩ uncommented
  | case18 word c rest gap hash single double backslash ih =>
      have noComment : place.next c ≠ .comment := by
        intro commented
        rw [Place.behind_cons, commented, Place.behind_comment] at uncommented
        exact uncommented rfl
      have bare := Place.isBare_next stands.1 noComment ⟨single, double, backslash⟩
      exact ih ⟨bare, fun empty => absurd empty (extend_ne_none word _)⟩ uncommented

theorem toOption_split (line : Text) : (split line).toOption = splitFrom .bare none line := by
  rw [split]
  cases splitFrom .bare none line <;> rfl

/-! ## The plain splitter, one step at a time -/

variable {c : Char} {word : Option Text} {rest : Text}

/-- A gap ends the word that has begun. -/
theorem splitFrom_gap (gap : isGap c = true) :
    splitFrom .bare word (c :: rest) = (splitFrom .bare none rest).map (close word ++ ·) := by
  rw [splitFrom.eq_def]
  simp [gap]

/-- A backslash outside quotes is dropped, and the next character taken as it is. -/
theorem splitFrom_backslash (noNewline : c ≠ '\n') :
    splitFrom .bare word ('\\' :: c :: rest) = splitFrom .bare (extend word [c]) rest := by
  rw [splitFrom.eq_def]
  simp [isGap, noNewline]

/-- Where a word would begin a `#` hides the rest of its line. -/
theorem splitFrom_comment :
    splitFrom .bare none ('#' :: rest) = splitFrom .bare none (skipLine rest) := by
  rw [splitFrom.eq_def]
  simp [isGap]

/-- Most characters stand for themselves. -/
theorem splitFrom_plain (noGap : isGap c = false) (goesOn : c = '#' → word ≠ none)
    (plain : c ≠ '\'' ∧ c ≠ '"' ∧ c ≠ '\\') :
    splitFrom .bare word (c :: rest) = splitFrom .bare (extend word [c]) rest := by
  have uncommented : ¬ (decide (c = '#') && word.isNone) = true := by
    simpa [Option.isNone_iff_eq_none] using goesOn
  rw [splitFrom.eq_def]
  simp [noGap, uncommented, plain]

/-- A separator behind a backslash is a word like any other. -/
theorem splitFrom_escapedGlyph (s : Separator) :
    splitFrom .bare none ('\\' :: (s.glyph ++ rest)) = splitFrom .bare (some s.glyph) rest := by
  have noNewline : '|' ≠ '\n' ∧ '&' ≠ '\n' ∧ ';' ≠ '\n' := by decide
  cases s with
  | pipe => exact splitFrom_backslash noNewline.1
  | semi => exact splitFrom_backslash noNewline.2.2
  | or =>
      rw [Separator.glyph, List.cons_append, splitFrom_backslash noNewline.1]
      exact splitFrom_plain rfl (fun _ => extend_ne_none _ _) (by decide)
  | and =>
      rw [Separator.glyph, List.cons_append, splitFrom_backslash noNewline.2.1]
      exact splitFrom_plain rfl (fun _ => extend_ne_none _ _) (by decide)

theorem splitFrom_openSingle :
    splitFrom .bare word ('\'' :: rest) = splitFrom .single (extend word []) rest := by
  rw [splitFrom.eq_def]
  simp [isGap]

theorem splitFrom_openDouble :
    splitFrom .bare word ('"' :: rest) = splitFrom .double (extend word []) rest := by
  rw [splitFrom.eq_def]
  simp [isGap]

theorem splitFrom_closeDouble :
    splitFrom .double word ('"' :: rest) = splitFrom .bare word rest := by
  rw [splitFrom.eq_def]
  simp

theorem splitFrom_inDouble (other : c ≠ '"' ∧ c ≠ '\\') :
    splitFrom .double word (c :: rest) = splitFrom .double (extend word [c]) rest := by
  rw [splitFrom.eq_def]
  simp [other]

/-- Inside double quotes a backslash is dropped before the few characters it protects. -/
theorem splitFrom_escapedInDouble (noNewline : c ≠ '\n') :
    splitFrom .double word ('\\' :: c :: rest) =
      splitFrom .double (extend word (if isEscapable c then [c] else ['\\', c])) rest := by
  have special : isEscapable c = (c = '$' || c = '`' || c = '"' || c = '\\') := by
    simp [isEscapable, noNewline]
  rw [splitFrom.eq_def]
  simp only [Char.reduceEq, if_false, if_true, special, noNewline]
  split <;> rfl

/-- A word that has begun is a word once it ends. -/
theorem splitFrom_of_ended {written : Text}
    (ends : ∀ c later, rest = c :: later → isGap c = true) :
    splitFrom .bare (some written) rest = (splitFrom .bare none rest).map (written :: ·) := by
  cases rest with
  | nil => simp [splitFrom, close]
  | cons c rest =>
      rw [splitFrom_gap (ends c rest rfl), splitFrom_gap (ends c rest rfl)]
      cases splitFrom .bare none rest <;> rfl

end Words

namespace Token

/-! ## The two readings side by side -/

theorem map_nil_append (result : Except Char Text) : result.map ([] ++ ·) = result := by
  cases result <;> rfl

/-- What the scan holds of a word that has begun is, once unquoted, what the plain splitter
holds of it. -/
structure Agree (quoting : Quoting) (begun word : Option Text) : Prop where
  together : begun.isSome = word.isSome
  spells : ∀ more, Word.textFrom .bare (begun.getD [] ++ more) =
    (Word.textFrom quoting more).map (word.getD [] ++ ·)

namespace Agree

variable {quoting later : Quoting} {begun word : Option Text}

/-- Nothing has begun in either reading. -/
theorem none : Agree .bare none none where
  together := rfl
  spells _ := (map_nil_append _).symm

/-- Both readings take a piece of the line, each in its own way. -/
theorem extend (agree : Agree quoting begun word) {piece written : Text}
    (reads : ∀ more, Word.textFrom quoting (piece ++ more) =
      (Word.textFrom later more).map (written ++ ·)) :
    Agree later (Token.extend begun piece) (Words.extend word written) where
  together := rfl
  spells more := by
    simp only [Token.extend, Words.extend, Option.getD_some, List.append_assoc]
    rw [agree.spells, reads]
    cases Word.textFrom later more <;> simp [Except.map]

/-- A piece that is only dropped leaves the word as it is. -/
theorem drop (agree : Agree quoting begun word) {piece : Text} (isBegun : begun.isSome = true)
    (reads : ∀ more, Word.textFrom quoting (piece ++ more) = Word.textFrom later more) :
    Agree later (Token.extend begun piece) word where
  together := by rw [← agree.together, isBegun]; rfl
  spells more := by
    simp only [Token.extend, Option.getD_some, List.append_assoc]
    rw [agree.spells, reads]

/-- Once it ends outside quotes, the word of one reading is the word of the other. -/
theorem close (agree : Agree .bare begun word) :
    ∃ words : List Word, List.Forall₂ Item.Reads (Item.resolve 0 (Token.close begun)) words ∧
      Words.close word = words.map Word.text := by
  obtain ⟨together, spells⟩ := agree
  cases begun with
  | none =>
      cases word with
      | none => exact ⟨[], .nil, rfl⟩
      | some written => cases together
  | some raw =>
      cases word with
      | none => cases together
      | some written =>
          have spelled := spells []
          simp only [Option.getD_some, List.append_nil] at spelled
          have ended : Word.textFrom .bare [] = .ok [] := by
            simp [Word.textFrom, Word.unquoteFrom, Except.map, Word.text]
          rw [ended] at spelled
          obtain ⟨read, unquotes, same⟩ := Word.exists_unquote_of_textFrom spelled
          refine ⟨[read], .cons (.word unquotes) .nil, ?_⟩
          simpa [Words.close] using same.symm

section Rules

variable {c : Char} {rest : Text}

/-- A `#` that goes on with a word in one reading does so in the other. -/
theorem goesOn (agree : Agree quoting begun word) (goesOn : c = '#' → begun ≠ Option.none) :
    c = '#' → word ≠ Option.none := by
  rintro hash rfl
  exact goesOn hash (by simpa using agree.together)

theorem escaped (agree : Agree .bare begun word) :
    Agree .bare (Token.extend begun ['\\', c]) (Words.extend word [c]) :=
  agree.extend fun more => Word.textFrom_backslash more (by decide) (.inl rfl)

theorem plain (agree : Agree .bare begun word) (isPlain : IsPlain c rest) :
    Agree .bare (Token.extend begun [c]) (Words.extend word [c]) :=
  agree.extend fun more => Word.textFrom_plain more (by decide)
    ⟨isPlain.unescaping, isPlain.unquoting.2⟩ fun quote => absurd quote isPlain.unquoting.1

/-- The quote that opens quotes is taken by one reading and dropped by the other. -/
theorem openQuote (agree : Agree .bare begun word) (style : Style) :
    Agree style.quoting (Token.extend begun style.quote) (Words.extend word []) :=
  agree.extend fun more => (Word.textFrom_quote more style).trans (map_nil_append _).symm

theorem closeQuote (style : Style) (agree : Agree style.quoting begun word)
    (isBegun : begun.isSome = true) : Agree .bare (Token.extend begun style.quote) word :=
  agree.drop isBegun fun more => Word.textFrom_closeQuote more style

theorem inSingle (agree : Agree .single begun word) (other : c ≠ '\'') :
    Agree .single (Token.extend begun [c]) (Words.extend word [c]) :=
  agree.extend fun more => Word.textFrom_single more other

theorem inDouble (agree : Agree .double begun word) (other : c ≠ '"' ∧ c ≠ '\\') :
    Agree .double (Token.extend begun [c]) (Words.extend word [c]) :=
  agree.extend fun more => Word.textFrom_plain more (by decide) ⟨other.2, other.1⟩
    fun _ => by decide

/-- Inside double quotes a backslash is kept before the characters that it does not protect. -/
theorem escapedInDouble (agree : Agree .double begun word) :
    Agree .double (Token.extend begun ['\\', c])
      (Words.extend word (if isEscapable c then [c] else ['\\', c])) := by
  refine agree.extend fun more => ?_
  by_cases escapable : isEscapable c = true
  · rw [if_pos escapable]
    exact Word.textFrom_backslash more (by decide) (.inr escapable)
  · rw [if_neg escapable]
    exact Word.textFrom_idleBackslash more (by simpa using escapable)

end Rules

end Agree

/-- What stands for itself is no gap. -/
theorem IsPlain.noGap {c : Char} {rest : Text} (isPlain : IsPlain c rest) :
    Words.isGap c = false := by
  rw [← Bool.not_eq_true]
  intro gap
  have white := Words.isBlank_of_isGap gap
  rw [isPlain.solid] at white
  cases white

end Token

/-- What may come at a place for both readings to take it alike. A comment may come if nothing
is left to split behind its own line, which is as far as the plain splitter takes it. -/
structure Place.Common (place : Place) (text : Text) : Prop where
  gaps : place.isBare = true → ∀ c ∈ text.head?, isBlank c = true → Words.isGap c = true
  noJoin : place.isEscaped = true → text.head? ≠ some '\n'
  quiet : place = .gap → ∀ comment, text = '#' :: comment →
    Words.splitFrom .bare none (Words.skipLine comment) = some []

/-- No newline comes where the character in front escapes it. -/
theorem Place.Common.ne_newline {place : Place} {c d : Char} {rest : Text}
    (common : place.Everywhere Place.Common (c :: d :: rest))
    (escapes : (place.next c).isEscaped = true) : d ≠ '\n' :=
  fun same => common.of_cons.here.noJoin escapes (congrArg some same)

/-- What a character of a line may be for both readings to know it. -/
structure Place.Tame (place : Place) (c : Char) : Prop where
  /-- The blanks outside quotes are space, tab and newline. -/
  gaps : place.isBare = true → isBlank c = true → Words.isGap c = true
  /-- No `#` begins a word. -/
  noHash : place = .gap → c ≠ '#'
  /-- No newline is escaped. -/
  noJoin : place.isEscaped = true → c ≠ '\n'

/-- A line that only holds what both readings know. -/
structure TameLine (line : Text) : Prop where
  throughout : Place.gap.Throughout Place.Tame line
  /-- The last character is no backslash that is itself unescaped. -/
  finished : Place.atEnd line ≠ .escape

instance (place : Place) (c : Char) : Decidable (place.Tame c) :=
  decidable_of_iff ((place.isBare = true → isBlank c = true → Words.isGap c = true) ∧
    (place = .gap → c ≠ '#') ∧ (place.isEscaped = true → c ≠ '\n'))
    ⟨fun ⟨gaps, noHash, noJoin⟩ => ⟨gaps, noHash, noJoin⟩,
      fun ⟨gaps, noHash, noJoin⟩ => ⟨gaps, noHash, noJoin⟩⟩

instance (line : Text) : Decidable (TameLine line) :=
  decidable_of_iff (Place.gap.Throughout Place.Tame line ∧ Place.atEnd line ≠ .escape)
    ⟨fun ⟨throughout, finished⟩ => ⟨throughout, finished⟩,
      fun ⟨throughout, finished⟩ => ⟨throughout, finished⟩⟩

namespace Token

/-- The plain splitter makes of a text the words that its items stand for. -/
def SplitsAlike (quoting : Quoting) (word : Option Text) (text : Text) (tokens : List Token) :
    Prop :=
  ∃ words : List Word, List.Forall₂ Item.Reads (Item.resolve 0 tokens) words ∧
    Words.splitFrom quoting word text = some (words.map Word.text)

namespace SplitsAlike

variable {quoting later : Quoting} {begun word wordToo : Option Text} {c : Char}
  {text rest : Text} {tokens : List Token}

/-- Where the plain splitter only takes a piece of the line into its word. -/
theorem step (alike : SplitsAlike later wordToo rest tokens)
    (same : Words.splitFrom quoting word text = Words.splitFrom later wordToo rest) :
    SplitsAlike quoting word text tokens := by
  obtain ⟨words, reads, splits⟩ := alike
  exact ⟨words, reads, same.trans splits⟩

theorem finish (agree : Agree .bare begun word) : SplitsAlike .bare word [] (close begun) := by
  obtain ⟨words, reads, closes⟩ := agree.close
  exact ⟨words, reads, by rw [Words.splitFrom, closes]⟩

/-- A comment is passed over by both readings if nothing is left behind its line. -/
theorem comment (quiet : Words.splitFrom .bare none (Words.skipLine rest) = some []) :
    SplitsAlike .bare none ('#' :: rest) [] :=
  ⟨[], .nil, Words.splitFrom_comment.trans quiet⟩

/-- A gap ends the word that has begun in both readings. -/
theorem blank (agree : Agree .bare begun word) (gap : Words.isGap c = true)
    (alike : SplitsAlike .bare none rest tokens) :
    SplitsAlike .bare word (c :: rest) (close begun ++ tokens) := by
  obtain ⟨opened, readsOpened, closes⟩ := agree.close
  obtain ⟨words, reads, splits⟩ := alike
  refine ⟨opened ++ words, ?_, ?_⟩
  · rw [(Item.settled_close begun).resolve_append]
    exact List.rel_append readsOpened reads
  · rw [Words.splitFrom_gap gap, splits, closes]
    simp

/-- A separator that a backslash takes along is a word of both readings. -/
theorem escapedGlyph {s : Separator} (ends : ∀ c more, rest = c :: more → Words.isGap c = true)
    (alike : SplitsAlike .bare none rest tokens) :
    SplitsAlike .bare none ('\\' :: (s.glyph ++ rest)) (.backslash :: .separator s :: tokens) := by
  obtain ⟨words, reads, splits⟩ := alike
  refine ⟨Word.ofText s.glyph :: words, .cons (.literal s.glyph) reads, ?_⟩
  rw [Words.splitFrom_escapedGlyph, Words.splitFrom_of_ended ends, splits]
  simp

end SplitsAlike

/-- A text without cuts is split plainly into the words of its items. The induction is on how the
text is read: `agree` carries the word that has begun, `fits` the place that says what `common`
allows next. -/
theorem exists_splitFrom_of_scanned {place : Place} {quoting : Quoting} {begun word : Option Text}
    {text : Text} {tokens : List Token} {ending : LineEnd}
    (scanned : Scanned quoting begun text tokens ending) (finished : ending ≠ .backslash)
    (fits : place.Fits quoting begun text) (common : place.Everywhere Place.Common text)
    (agree : Agree quoting begun word)
    (uncut : ∀ s, .cut s ∉ Item.resolve 0 tokens) : SplitsAlike quoting word text tokens := by
  induction scanned generalizing place word with
  | finish begun => exact .finish agree
  | comment rest =>
      obtain rfl : word = Option.none := by simpa using agree.together
      cases fits with
      | gap => exact .comment (common.here.quiet rfl rest rfl)
      | ended bare ends => cases ends
  | @blank c begun rest tokens ending white later ih =>
      have behind := common.of_cons
      rw [fits.next_blank white] at behind
      rw [(Item.settled_close begun).resolve_append] at uncut
      exact .blank agree (common.here.gaps fits.isBare c rfl white)
        (ih finished (.gap rest) behind .none fun s member =>
          uncut s (List.mem_append_right _ member))
  | @glyph s begun rest tokens ending starts later ih =>
      rw [(Item.settled_close begun).resolve_append] at uncut
      exact absurd (List.mem_append_right _ List.mem_cons_self) (uncut s)
  | lastBackslash begun => exact absurd rfl finished
  | @escapedGlyph s rest tokens ending ends later ih =>
      obtain rfl : word = Option.none := by simpa using agree.together
      have behind : (place.behind ('\\' :: s.glyph)).Everywhere Place.Common rest :=
        Place.Everywhere.of_append (by rwa [List.cons_append])
      refine .escapedGlyph ?_ (ih finished (.ended fits.behind_escapedGlyph ends) behind .none
        fun t member => uncut t (List.mem_cons_of_mem _ member))
      rintro c more rfl
      exact behind.here.gaps fits.behind_escapedGlyph c rfl ends
  | @escaped c begun rest tokens ending bound later ih =>
      have noNewline := Place.Common.ne_newline common (by rw [fits.next_backslash]; rfl)
      exact (ih finished fits.escaped common.of_cons.of_cons agree.escaped uncut).step
        (Words.splitFrom_backslash noNewline)
  | @plain c begun rest tokens ending isPlain goesOn later ih =>
      exact (ih finished (fits.plain isPlain goesOn) common.of_cons (agree.plain isPlain) uncut).step
        (Words.splitFrom_plain isPlain.noGap (agree.goesOn goesOn)
          ⟨isPlain.unquoting.1, isPlain.unquoting.2, isPlain.unescaping⟩)
  | @openSingle begun rest tokens ending later ih =>
      exact (ih finished fits.openSingle common.of_cons (agree.openQuote .single) uncut).step
        Words.splitFrom_openSingle
  | @openDouble begun rest tokens ending later ih =>
      exact (ih finished fits.openDouble common.of_cons (agree.openQuote .double) uncut).step
        Words.splitFrom_openDouble
  | @closeSingle begun rest tokens ending later ih =>
      cases fits
      refine (ih finished (.word _ _) common.of_cons (agree.closeQuote .single rfl) uncut).step ?_
      rw [Words.splitFrom, if_pos rfl]
  | @closeDouble begun rest tokens ending later ih =>
      cases fits
      exact (ih finished (.word _ _) common.of_cons (agree.closeQuote .double rfl) uncut).step
        Words.splitFrom_closeDouble
  | @inSingle c begun rest tokens ending other later ih =>
      refine (ih finished (fits.inSingle other) common.of_cons (agree.inSingle other) uncut).step ?_
      rw [Words.splitFrom, if_neg other]
  | @inDouble c begun rest tokens ending other later ih =>
      exact (ih finished (fits.inDouble other) common.of_cons (agree.inDouble other) uncut).step
        (Words.splitFrom_inDouble other)
  | @escapedInDouble c begun rest tokens ending later ih =>
      cases fits
      exact (ih finished (.double _ _) common.of_cons.of_cons agree.escapedInDouble uncut).step
        (Words.splitFrom_escapedInDouble (Place.Common.ne_newline common rfl))

end Token

namespace TameLine

variable {line : Text}

/-- A tame line has no comment, so more could be read behind it. -/
theorem endsOpen (tame : TameLine line) : EndsOpen line where
  uncommented := by
    apply Place.behind_ne_comment (by decide)
    intro before c after split
    exact (tame.throughout before c after split).noHash
  finished := tame.finished

/-- Plain splitting fails on a line that ends inside quotes. -/
theorem split_eq_error_iff (tame : TameLine line) :
    (∃ fault, Words.split line = .error fault) ↔ (Place.atEnd line).isBare = false := by
  have atStart : Words.StandsAt .gap none .bare := ⟨rfl, fun _ => rfl⟩
  have plainly := Words.splitFrom_eq_none_iff atStart tame.endsOpen.uncommented
  rw [Place.atEnd, ← plainly, Words.split]
  cases Words.splitFrom .bare none line <;> simp

/-- Both readings read the same lines. -/
theorem lex_fails_iff (tame : TameLine line) :
    (∃ fault, Token.lex line = .error fault) ↔ ∃ fault, Words.split line = .error fault := by
  rw [tame.endsOpen.lex_eq_error_iff_isBare, tame.split_eq_error_iff]

/-- A tame line holds only what both readings take alike, no comment among it. -/
theorem common (tame : TameLine line) : Place.gap.Everywhere Place.Common line := by
  intro before after split
  cases after with
  | nil => exact ⟨by simp, by simp, by simp⟩
  | cons c after =>
      obtain ⟨gaps, noHash, noJoin⟩ := tame.throughout before c after split
      refine ⟨fun bare => by simpa using gaps bare, fun escaped => by simpa using noJoin escaped, ?_⟩
      intro atGap comment same
      exact absurd (List.cons.inj same).1 (noHash atGap)

/-- Without a cut a line is split plainly into the words of its items. -/
theorem exists_split (tame : TameLine line) {tokens : List Token}
    (lexed : Token.lex line = .ok tokens) (uncut : ∀ s, .cut s ∉ Item.ofTokens tokens) :
    ∃ words : List Word, List.Forall₂ Item.Reads (Item.ofTokens tokens) words ∧
      Words.split line = .ok (words.map Word.text) := by
  obtain ⟨words, reads, splits⟩ := Token.exists_splitFrom_of_scanned
    (tame.endsOpen.scanned lexed) (by decide) (.gap line) tame.common .none uncut
  exact ⟨words, reads, by rw [Words.split, splits]⟩

/-- On a tame line the two readings agree: they fail together, and a line without a cut is one
stage of the plainly split words. -/
theorem readings_agree (tame : TameLine line) :
    ((∃ fault, Token.lex line = .error fault) ↔ ∃ fault, Words.split line = .error fault) ∧
      ∀ tokens, Token.lex line = .ok tokens → (∀ s, .cut s ∉ Item.ofTokens tokens) →
        Item.ofTokens tokens ≠ [] →
        ∃ stage, Pipeline.split line = .ok [stage] ∧ stage.readsPrevious = false ∧
          Words.split line = .ok stage.args := by
  refine ⟨tame.lex_fails_iff, ?_⟩
  intro tokens lexed uncut nonempty
  obtain ⟨words, reads, splits⟩ := tame.exists_split lexed uncut
  obtain ⟨item, member⟩ := List.exists_mem_of_ne_nil _ nonempty
  have noCut : ∀ s, item ≠ .cut s := by
    rintro s rfl
    exact uncut s member
  have grouped : Pipeline.split line = .ok (Pipeline.closeGroup true none words) := by
    rw [Pipeline.split_eq_group lexed member noCut, Pipeline.group_of_reads reads, List.nil_append]
  have someWord : words ≠ [] := by
    rintro rfl
    rw [List.forall₂_nil_right_iff] at reads
    exact nonempty reads
  rw [Pipeline.closeGroup, if_neg (by simpa using someWord)] at grouped
  exact ⟨⟨⟨words⟩, false⟩, grouped, rfl, splits⟩

/-- Quoted and escaped separators, an escaped quote and an empty quoted word. -/
theorem readings_agree_on_escapes :
    let line := "echo 'a;b' \\| \"x\\\"y\" ''".toList
    TameLine line ∧
      ((∃ fault, Token.lex line = .error fault) ↔ ∃ fault, Words.split line = .error fault) ∧
      ∃ stage, Pipeline.split line = .ok [stage] ∧ stage.readsPrevious = false ∧
        Words.split line = .ok stage.args := by
  intro line
  have tame : TameLine line := by decide
  obtain ⟨together, oneStage⟩ := readings_agree tame
  let tokens : List Token := [.word "echo".toList, .word "'a;b'".toList, .backslash,
    .separator .pipe, .word "\"x\\\"y\"".toList, .word "''".toList]
  have uncut : ∀ s, .cut s ∉ Item.ofTokens tokens := by
    intro s
    cases s <;> decide
  exact ⟨tame, together, oneStage tokens (by rfl) uncut (by decide)⟩

end TameLine

end Errand.Shell
