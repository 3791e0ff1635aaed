/-
# Text as a list of characters

Every line, word, path and message in this library is a list of characters, so
that a statement about one is an induction. Strings appear only where a message
is worded or a value leaves the program.

Blank characters are those of the Unicode property White_Space. The table is
written out because the class built into `Char` knows ASCII alone.
-/

namespace Errand

/-- A piece of text, character by character. -/
abbrev Text := List Char

/-- The characters with the Unicode property White_Space. -/
def blankChars : List Char :=
  ['\t', '\n', '\x0b', '\x0c', '\r', ' ', '\u0085', '\u00a0', '\u1680',
   '\u2000', '\u2001', '\u2002', '\u2003', '\u2004', '\u2005', '\u2006', '\u2007',
   '\u2008', '\u2009', '\u200a', '\u2028', '\u2029', '\u202f', '\u205f', '\u3000']

/-- Whether a character is white space in the sense of Unicode. -/
def isBlank (c : Char) : Bool :=
  blankChars.contains c

/-- Every character that core counts as white space is blank here too. -/
theorem isBlank_of_isWhitespace {c : Char} (h : c.isWhitespace = true) : isBlank c = true := by
  simp only [Char.isWhitespace, Bool.or_eq_true, decide_eq_true_eq] at h
  rcases h with ((rfl | rfl) | rfl) | rfl <;> decide

namespace Text

/-- The text of a string. -/
abbrev ofString (s : String) : Text := s.toList

/-- The string that a text spells. -/
def toString (text : Text) : String := String.ofList text

/-- The text without the blank characters at its start. -/
def trimStart (text : Text) : Text := text.dropWhile isBlank

/-- The text without the blank characters at its end. -/
def trimEnd (text : Text) : Text := (text.reverse.dropWhile isBlank).reverse

/-- The text without the blank characters at either end. -/
def trim (text : Text) : Text := trimEnd (trimStart text)

/-- The line spelled backwards by `reversed`, less one carriage return at its end. -/
private def closeLine : Text → Text
  | '\r' :: reversed => reversed.reverse
  | reversed => reversed.reverse

/-- Lines of the text still to read, after the characters `reversed` of the line
being read, held last character first. -/
private def linesFrom : Text → Text → List Text
  | [], [] => []
  | reversed, [] => [reversed.reverse]
  | reversed, '\n' :: rest => closeLine reversed :: linesFrom [] rest
  | reversed, c :: rest => linesFrom (c :: reversed) rest

/-- The lines of a text. A newline ends a line, a carriage return right before it
is part of the line ending, and no empty line is counted after the last newline. -/
def lines (text : Text) : List Text := linesFrom [] text

/-- What follows `start` in the text, if the text begins with it. -/
def after? (text start : Text) : Option Text :=
  if start.isPrefixOf text then some (text.drop start.length) else none

/-- The text before and after the first `mark`, if it occurs. -/
def cut? (mark : Char) : Text → Option (Text × Text)
  | [] => none
  | c :: rest =>
    if c = mark then some ([], rest)
    else (cut? mark rest).map fun (before, behind) => (c :: before, behind)

/-- The text cut at every `mark`, which belongs to no part. There is always at
least one part. -/
def cutAll (mark : Char) : Text → List Text
  | [] => [[]]
  | c :: rest =>
    if c = mark then [] :: cutAll mark rest
    else match cutAll mark rest with
      | part :: parts => (c :: part) :: parts
      | [] => [[c]]

/-- The texts in order with `mark` between neighbours. -/
def join (mark : Text) : List Text → Text
  | [] => []
  | [text] => text
  | text :: more => text ++ mark ++ join mark more

theorem after?_eq_some_iff {text start rest : Text} :
    after? text start = some rest ↔ text = start ++ rest := by
  rw [after?]
  constructor
  · intro found
    split at found
    · next isPrefix =>
      obtain ⟨behind, rfl⟩ := List.isPrefixOf_iff_prefix.mp isPrefix
      rw [← Option.some.inj found, List.drop_left]
    · cases found
  · rintro rfl
    rw [if_pos (List.isPrefixOf_iff_prefix.mpr (List.prefix_append start rest)), List.drop_left]

theorem cut?_eq_some_iff {mark : Char} {text before behind : Text} :
    cut? mark text = some (before, behind) ↔ text = before ++ mark :: behind ∧ mark ∉ before := by
  induction text generalizing before with
  | nil => simp [cut?]
  | cons c rest ih =>
    rw [cut?]
    by_cases same : c = mark
    · subst same
      rw [if_pos rfl]
      constructor
      · intro found
        cases found
        exact ⟨rfl, List.not_mem_nil⟩
      · rintro ⟨split, unseen⟩
        cases before with
        | nil => rw [← (List.cons.inj split).2]
        | cons d before => exact absurd ((List.cons.inj split).1 ▸ List.mem_cons_self) unseen
    · rw [if_neg same]
      constructor
      · intro found
        obtain ⟨⟨front, further⟩, later, split⟩ := Option.map_eq_some_iff.mp found
        cases split
        obtain ⟨rfl, unseen⟩ := ih.mp later
        exact ⟨rfl, List.not_mem_cons_of_ne_of_not_mem (Ne.symm same) unseen⟩
      · rintro ⟨split, unseen⟩
        cases before with
        | nil => exact absurd (List.cons.inj split).1 same
        | cons d before =>
          obtain ⟨rfl, behindToo⟩ := List.cons.inj split
          rw [ih.mpr ⟨behindToo, List.not_mem_of_not_mem_cons unseen⟩]
          rfl

/-- An ASCII letter in lower case; any other character as it is. -/
def foldCase (text : Text) : Text := text.map Char.toLower

/-- Whether two texts agree up to the case of ASCII letters. -/
def agreesFolded (left right : Text) : Bool := foldCase left == foldCase right

end Text

end Errand
