/-
# How a line is read

What `Token.scan` does with a line is spelled out as a relation with one rule for each thing
that can come next: a blank, a separator, a backslash with the glyph it takes along, a quote
and what stands between quotes. A derivation follows the line from left to right. Statements
about the tokens of a line are proved by induction on it, where a separator behind its
backslash is one step and not two.
-/
import Errand.Proofs.Outcomes
import Errand.Proofs.Shell.Scanning

namespace Errand.Shell

/-- A separator is found where it is written, unless the next character makes it longer. -/
theorem Separator.atStart?_glyph (s : Separator) {rest : Text} (ends : EndsWord rest) :
    atStart? (s.glyph ++ rest) = some s := by
  cases s with
  | or => rfl
  | and => rfl
  | semi => rfl
  | pipe =>
      rw [glyph, List.singleton_append, atStart?]
      rintro later rfl
      exact absurd ends Bool.false_ne_true

/-- A text that begins with a separator is that separator and what stands behind it. -/
theorem Separator.exists_of_atStart? {text : Text} {s : Separator}
    (starts : atStart? text = some s) : ∃ rest, text = s.glyph ++ rest := by
  unfold atStart? at starts
  split at starts <;> cases starts <;> exact ⟨_, rfl⟩

/-- A separator stands free if the word ends behind it. -/
theorem freeStanding_iff {text : Text} :
    freeStanding text = true ↔ ∃ s : Separator, ∃ rest, text = s.glyph ++ rest ∧ EndsWord rest := by
  constructor
  · intro free
    unfold freeStanding at free
    split at free
    · cases free
    · next s starts =>
        obtain ⟨rest, rfl⟩ := Separator.exists_of_atStart? starts
        rw [List.drop_left] at free
        refine ⟨s, rest, rfl, ?_⟩
        cases rest with
        | nil => trivial
        | cons c rest => exact free
  · rintro ⟨s, rest, rfl, ends⟩
    rw [freeStanding, s.atStart?_glyph ends]
    simp only [List.drop_left]
    cases rest with
    | nil => rfl
    | cons c rest => exact ends

namespace Token

/-- A character that stands for itself outside quotes, before the text behind it. -/
structure IsPlain (c : Char) (rest : Text) : Prop where
  solid : isBlank c = false
  unescaping : c ≠ '\\'
  unquoting : c ≠ '\'' ∧ c ≠ '"'
  uncut : Separator.atStart? (c :: rest) = none

/-- A character stands for itself if it is none of those that do not. -/
theorem isPlain_of_not {c : Char} {rest : Text} (solid : ¬ isBlank c = true)
    (loneBackslash : c = '\\' → rest = [] → False)
    (backslash : ∀ next later, c = '\\' → rest = next :: later → False)
    (or : ∀ later, c = '|' → rest = '|' :: later → False)
    (and : ∀ later, c = '&' → rest = '&' :: later → False)
    (pipe : c = '|' → False) (semi : c = ';' → False) (unquoting : c ≠ '\'' ∧ c ≠ '"') :
    IsPlain c rest where
  solid := by simpa using solid
  unescaping := by
    rintro rfl
    cases rest with
    | nil => exact loneBackslash rfl rfl
    | cons next rest => exact backslash next rest rfl rfl
  unquoting := unquoting
  uncut := by
    rw [Separator.atStart?]
    all_goals simp_all

/-- A character that stands for itself is a separator of no kind. -/
theorem IsPlain.noGlyph {c : Char} {rest : Text} (isPlain : IsPlain c rest) :
    c ≠ '|' ∧ c ≠ ';' := by
  have uncut := isPlain.uncut
  constructor
  · rintro rfl
    unfold Separator.atStart? at uncut
    split at uncut <;> simp_all
  · rintro rfl
    cases uncut

/-- Of two `&` in a row the first one does not stand for itself. -/
theorem IsPlain.single {rest : Text} (isPlain : IsPlain '&' rest) : rest.head? ≠ some '&' := by
  intro again
  obtain ⟨later, rfl⟩ := List.head?_eq_some_iff.mp again
  cases isPlain.uncut

/-- With what the reading of a line ends. -/
inductive LineEnd where
  /-- The line ends outside quotes, and more could be read behind it. -/
  | bare
  /-- The rest of the line is a comment. -/
  | comment
  /-- The line ends with a backslash that escapes nothing. -/
  | backslash
  deriving DecidableEq, Repr

/-- With these quotes open and this word begun, a text is read as these tokens, up to this end
of the line. -/
inductive Scanned : Quoting → Option Text → Text → List Token → LineEnd → Prop
  | finish (begun : Option Text) : Scanned .bare begun [] (close begun) .bare
  | comment (rest : Text) : Scanned .bare none ('#' :: rest) [] .comment
  | blank {c : Char} {begun : Option Text} {rest : Text} {tokens : List Token} {ending : LineEnd}
      (white : isBlank c = true) (later : Scanned .bare none rest tokens ending) :
      Scanned .bare begun (c :: rest) (close begun ++ tokens) ending
  | glyph {s : Separator} {begun : Option Text} {rest : Text} {tokens : List Token}
      {ending : LineEnd}
      (starts : Separator.atStart? (s.glyph ++ rest) = some s)
      (later : Scanned .bare none rest tokens ending) :
      Scanned .bare begun (s.glyph ++ rest) (close begun ++ .separator s :: tokens) ending
  /-- A backslash with nothing behind it. -/
  | lastBackslash (begun : Option Text) :
      Scanned .bare begun ['\\'] (close begun ++ [.backslash]) .backslash
  /-- A backslash that begins a word and takes a free-standing separator along. -/
  | escapedGlyph {s : Separator} {rest : Text} {tokens : List Token} {ending : LineEnd}
      (ends : EndsWord rest) (later : Scanned .bare none rest tokens ending) :
      Scanned .bare none ('\\' :: (s.glyph ++ rest)) (.backslash :: .separator s :: tokens)
        ending
  /-- Any other backslash outside quotes. -/
  | escaped {c : Char} {begun : Option Text} {rest : Text} {tokens : List Token} {ending : LineEnd}
      (bound : begun = none → freeStanding (c :: rest) = false)
      (later : Scanned .bare (extend begun ['\\', c]) rest tokens ending) :
      Scanned .bare begun ('\\' :: c :: rest) tokens ending
  | plain {c : Char} {begun : Option Text} {rest : Text} {tokens : List Token} {ending : LineEnd}
      (isPlain : IsPlain c rest) (goesOn : c = '#' → begun ≠ none)
      (later : Scanned .bare (extend begun [c]) rest tokens ending) :
      Scanned .bare begun (c :: rest) tokens ending
  | openSingle {begun : Option Text} {rest : Text} {tokens : List Token} {ending : LineEnd}
      (later : Scanned .single (extend begun ['\'']) rest tokens ending) :
      Scanned .bare begun ('\'' :: rest) tokens ending
  | openDouble {begun : Option Text} {rest : Text} {tokens : List Token} {ending : LineEnd}
      (later : Scanned .double (extend begun ['"']) rest tokens ending) :
      Scanned .bare begun ('"' :: rest) tokens ending
  | closeSingle {begun : Option Text} {rest : Text} {tokens : List Token} {ending : LineEnd}
      (later : Scanned .bare (extend begun ['\'']) rest tokens ending) :
      Scanned .single begun ('\'' :: rest) tokens ending
  | closeDouble {begun : Option Text} {rest : Text} {tokens : List Token} {ending : LineEnd}
      (later : Scanned .bare (extend begun ['"']) rest tokens ending) :
      Scanned .double begun ('"' :: rest) tokens ending
  | inSingle {c : Char} {begun : Option Text} {rest : Text} {tokens : List Token} {ending : LineEnd}
      (other : c ≠ '\'') (later : Scanned .single (extend begun [c]) rest tokens ending) :
      Scanned .single begun (c :: rest) tokens ending
  | inDouble {c : Char} {begun : Option Text} {rest : Text} {tokens : List Token} {ending : LineEnd}
      (other : c ≠ '"' ∧ c ≠ '\\') (later : Scanned .double (extend begun [c]) rest tokens ending) :
      Scanned .double begun (c :: rest) tokens ending
  | escapedInDouble {c : Char} {begun : Option Text} {rest : Text} {tokens : List Token}
      {ending : LineEnd}
      (later : Scanned .double (extend begun ['\\', c]) rest tokens ending) :
      Scanned .double begun ('\\' :: c :: rest) tokens ending

/-! ## The scan, one step at a time -/

variable {c : Char} {begun : Option Text} {rest : Text}

/-- A separator outside quotes ends the word that has begun. -/
theorem scan_glyph {s : Separator} (starts : Separator.atStart? (s.glyph ++ rest) = some s) :
    scan .bare begun (s.glyph ++ rest) =
      (scan .bare none rest).map (close begun ++ .separator s :: ·) := by
  cases s with
  | or => rfl
  | and => rfl
  | semi => rw [Separator.glyph, List.singleton_append, scan]
  | pipe =>
      rw [Separator.glyph, List.singleton_append, scan]
      rintro later rfl
      cases starts

/-- A character that stands for itself is taken into the word, or begins one. -/
theorem scan_plain (isPlain : IsPlain c rest) (goesOn : c = '#' → begun ≠ none) :
    scan .bare begun (c :: rest) = scan .bare (extend begun [c]) rest := by
  obtain ⟨solid, unescaping, ⟨unquotingSingle, unquotingDouble⟩, uncut⟩ := isPlain
  have uncommented : ¬ (decide (c = '#') && begun.isNone) = true := by
    simpa using fun hash empty => goesOn hash (Option.isNone_iff_eq_none.mp (by simpa using empty))
  rw [scan]
  · simp [solid, uncommented, unquotingSingle, unquotingDouble]
  · exact fun isBackslash _ => unescaping isBackslash
  · exact fun _ _ isBackslash _ => unescaping isBackslash
  · rintro later rfl rfl
    cases uncut
  · rintro later rfl rfl
    cases uncut
  · rintro rfl
    unfold Separator.atStart? at uncut
    split at uncut <;> simp_all
  · rintro rfl
    cases uncut

/-- What is read as some tokens is scanned as these. -/
theorem Scanned.scan_eq_ok {quoting : Quoting} {text : Text} {tokens : List Token}
    {ending : LineEnd} (scanned : Scanned quoting begun text tokens ending) :
    scan quoting begun text = .ok tokens := by
  induction scanned with
  | finish begun => rw [scan]
  | comment rest => simp [scan, isBlank, blankChars]
  | blank white later ih => rw [scan_of_isBlank _ _ white, ih]; rfl
  | glyph starts later ih => rw [scan_glyph starts, ih]; rfl
  | lastBackslash begun => rw [scan]
  | @escapedGlyph s rest tokens ending ends later ih =>
      have free : freeStanding (s.glyph ++ rest) = true := freeStanding_iff.mpr ⟨s, rest, rfl, ends⟩
      have separated : scan .bare none (s.glyph ++ rest) =
          (scan .bare none rest).map (close none ++ .separator s :: ·) :=
        scan_glyph (s.atStart?_glyph ends)
      obtain ⟨c, more, same⟩ : ∃ c more, s.glyph ++ rest = c :: more := by
        cases s <;> exact ⟨_, _, rfl⟩
      rw [same] at free separated ⊢
      rw [scan, if_pos (by simp [free]), separated, ih]
      rfl
  | escaped bound later ih =>
      rw [scan, if_neg, ih]
      simpa [Option.isNone_iff_eq_none] using bound
  | plain isPlain goesOn later ih => rw [scan_plain isPlain goesOn, ih]
  | openSingle later ih => rw [scan, ← ih] <;> simp [isBlank, blankChars]
  | openDouble later ih => rw [scan, ← ih] <;> simp [isBlank, blankChars]
  | closeSingle later ih => rw [scan, if_pos rfl, ih]
  | closeDouble later ih => rw [scan, if_pos rfl, ih]; simp
  | inSingle other later ih => rw [scan, if_neg other, ih]
  | inDouble other later ih =>
      rw [scan, if_neg other.1, ih]
      exact fun _ _ isBackslash _ => other.2 isBackslash
  | escapedInDouble later ih => rw [scan, ih]

/-- A text that begins with a separator is read as one, whatever the rules allow besides. -/
theorem Scanned.of_glyph {s : Separator} {tokens : List Token} {ending : LineEnd}
    (starts : Separator.atStart? (s.glyph ++ rest) = some s)
    (scanned : Scanned .bare begun (s.glyph ++ rest) tokens ending) :
    ∃ later, tokens = close begun ++ .separator s :: later ∧
      Scanned .bare none rest later ending := by
  generalize same : s.glyph ++ rest = text at scanned starts
  have first (c : Char) (other : Text) (sameToo : s.glyph ++ rest = c :: other) :
      c = '|' ∨ c = '&' ∨ c = ';' := by
    cases s <;> obtain ⟨rfl, -⟩ := List.cons.inj sameToo <;> simp
  cases scanned with
  | glyph startsToo later =>
      obtain rfl := Option.some.inj (starts.symm.trans startsToo)
      obtain rfl := List.append_cancel_left same
      exact ⟨_, rfl, later⟩
  | finish => cases s <;> cases same
  | plain isPlain goesOn later =>
      rw [isPlain.uncut] at starts
      cases starts
  | blank white later =>
      rcases first _ _ same with rfl | rfl | rfl <;> cases white
  | comment | lastBackslash | escapedGlyph | escaped | openSingle | openDouble =>
      simpa using first _ _ same

/-! ## The rules, one step at a time -/

/-- Whatever tokens come of reading a text, the rules read them. -/
def Explained (quoting : Quoting) (begun : Option Text) (text : Text)
    (result : Except Char (List Token)) : Prop :=
  ∀ tokens, result = .ok tokens → ∃ ending, Scanned quoting begun text tokens ending

namespace Explained

variable {quoting later : Quoting} {word : Option Text} {text : Text}
  {result : Except Char (List Token)}

/-- A rule that reads what stands in front and makes no token of it. -/
theorem step (explained : Explained later word rest result)
    (rule : ∀ tokens ending, Scanned later word rest tokens ending →
      Scanned quoting begun text tokens ending) : Explained quoting begun text result := by
  intro tokens found
  obtain ⟨ending, scanned⟩ := explained tokens found
  exact ⟨ending, rule tokens ending scanned⟩

/-- A rule that makes tokens of what stands in front. -/
theorem map {front : List Token → List Token} (explained : Explained later word rest result)
    (rule : ∀ tokens ending, Scanned later word rest tokens ending →
      Scanned quoting begun text (front tokens) ending) :
    Explained quoting begun text (result.map front) := by
  intro tokens mapped
  obtain ⟨behind, found, rfl⟩ := exists_of_map_eq_ok mapped
  obtain ⟨ending, scanned⟩ := explained behind found
  exact ⟨ending, rule behind ending scanned⟩

theorem glyph {s : Separator} (explained : Explained .bare none rest result)
    (starts : Separator.atStart? (s.glyph ++ rest) = some s) :
    Explained .bare begun (s.glyph ++ rest)
      (result.map (close begun ++ .separator s :: ·)) :=
  explained.map fun _ _ => .glyph starts

/-- A separator that stands free is read behind the backslash, which takes it along. -/
theorem escapedGlyph (explained : Explained .bare none text result)
    (free : freeStanding text = true) :
    Explained .bare none ('\\' :: text) (result.map (.backslash :: ·)) := by
  obtain ⟨s, rest, rfl, ends⟩ := freeStanding_iff.mp free
  refine explained.map fun tokens ending scanned => ?_
  obtain ⟨more, rfl, behind⟩ := scanned.of_glyph (s.atStart?_glyph ends)
  exact .escapedGlyph ends behind

/-- In single quotes only the quote itself is not taken as it is. -/
theorem inSingle
    (explained : Explained (if c = '\'' then .bare else .single) (extend begun [c]) rest result) :
    Explained .single begun (c :: rest) result := by
  by_cases closing : c = '\''
  · subst closing
    exact explained.step fun _ _ => .closeSingle
  · rw [if_neg closing] at explained
    exact explained.step fun _ _ => .inSingle closing

/-- In double quotes a backslash is not taken alone either, but then the quotes are never
closed. -/
theorem inDouble (unescaped : ∀ next behind, c = '\\' → rest = next :: behind → False)
    (explained : Explained (if c = '"' then .bare else .double) (extend begun [c]) rest result) :
    Explained .double begun (c :: rest) result := by
  by_cases closing : c = '"'
  · subst closing
    exact explained.step fun _ _ => .closeDouble
  · rw [if_neg closing] at explained
    refine explained.step fun _ _ scanned => .inDouble ⟨closing, ?_⟩ scanned
    rintro rfl
    cases rest with
    | nil => cases scanned
    | cons next rest => exact unescaped next rest rfl rfl

/-- Outside quotes a character opens them or stands for itself, if it is nothing else. -/
theorem outside (isPlain : c ≠ '\'' ∧ c ≠ '"' → IsPlain c rest) (goesOn : c = '#' → begun ≠ none)
    (explained : Explained (if c = '\'' then .single else if c = '"' then .double else .bare)
      (extend begun [c]) rest result) : Explained .bare begun (c :: rest) result := by
  by_cases isSingle : c = '\''
  · subst isSingle
    exact explained.step fun _ _ => .openSingle
  by_cases isDouble : c = '"'
  · subst isDouble
    exact explained.step fun _ _ => .openDouble
  rw [if_neg isSingle, if_neg isDouble] at explained
  exact explained.step fun _ _ => .plain (isPlain ⟨isSingle, isDouble⟩) goesOn

end Explained

/-- The rules read all that is scanned. -/
theorem explained_scan (quoting : Quoting) (begun : Option Text) (text : Text) :
    Explained quoting begun text (scan quoting begun text) := by
  fun_induction scan quoting begun text with
  | case1 begun =>
      rintro _ ⟨⟩
      exact ⟨_, .finish begun⟩
  | case2 | case3 => rintro _ ⟨⟩
  | case4 begun c rest ih => exact ih.inSingle
  | case5 begun c rest ih => exact ih.step fun _ _ => .escapedInDouble
  | case6 begun c rest unescaped ih => exact ih.inDouble unescaped
  | case7 begun =>
      rintro _ ⟨⟩
      exact ⟨_, .lastBackslash begun⟩
  | case8 begun c rest free ih =>
      obtain ⟨rfl, free⟩ : begun = none ∧ freeStanding (c :: rest) = true := by simpa using free
      exact ih.escapedGlyph free
  | case9 begun c rest bound ih =>
      exact ih.step fun _ _ => .escaped (by simpa using bound)
  | case10 begun rest ih => exact ih.glyph (s := .or) rfl
  | case11 begun rest ih => exact ih.glyph (s := .and) rfl
  | case12 begun rest single ih =>
      refine ih.glyph (s := .pipe) ?_
      rw [Separator.glyph, List.singleton_append, Separator.atStart?]
      exact single
  | case13 begun rest ih => exact ih.glyph (s := .semi) rfl
  | case14 begun c rest _ _ _ _ _ _ white ih => exact ih.map fun _ _ => .blank white
  | case15 begun c rest _ _ _ _ _ _ _ commented =>
      obtain ⟨rfl, rfl⟩ : c = '#' ∧ begun = none := by simpa using commented
      rintro _ ⟨⟩
      exact ⟨_, .comment rest⟩
  | case16 begun c rest loneBackslash backslash or and pipe semi solid uncommented ih =>
      exact ih.outside (isPlain_of_not solid loneBackslash backslash or and pipe semi)
        (by simpa using uncommented)

/-- What is scanned as some tokens is read as these. -/
theorem scanned_of_scan {quoting : Quoting} {text : Text} {tokens : List Token}
    (scans : scan quoting begun text = .ok tokens) :
    ∃ ending, Scanned quoting begun text tokens ending :=
  explained_scan quoting begun text tokens scans

/-- The rules say exactly what a line is read as. -/
theorem lex_eq_ok_iff {line : Text} {tokens : List Token} :
    lex line = .ok tokens ↔ ∃ ending, Scanned .bare none line tokens ending := by
  have scans : lex line = .ok tokens ↔ scan .bare none line = .ok tokens := by
    rw [lex]
    cases scan .bare none line with
    | error quote => constructor <;> intro failed <;> cases failed
    | ok found =>
        constructor
        · intro same
          exact congrArg Except.ok (Except.ok.inj same)
        · intro same
          exact congrArg Except.ok (Except.ok.inj same)
  rw [scans]
  constructor
  · exact scanned_of_scan
  · rintro ⟨ending, scanned⟩
    exact scanned.scan_eq_ok

end Token

end Errand.Shell
