/-
# Texts between blanks

A line is read from its start, with a state that says which quotes are open and which word
has begun. At a blank outside quotes that state is always the same. So what a text is read
as does not depend on what stands behind the next blank, and the tokens of a line are those
of its parts in a row.
-/
import Errand.Shell.Token

namespace Errand.Shell

/-- A text after which a word that has begun ends: there is nothing, or a blank first. -/
def EndsWord : Text → Prop
  | [] => True
  | c :: _ => isBlank c = true

namespace Token

/-- A blank is none of the characters that are not blank. -/
theorem ne_of_isBlank {c solid : Char} (blank : isBlank c = true)
    (isSolid : isBlank solid = false) : c ≠ solid := by
  rintro rfl
  rw [blank] at isSolid
  cases isSolid

/-- A blank outside quotes ends the word that has begun. -/
theorem scan_of_isBlank {c : Char} (begun : Option Text) (rest : Text)
    (blank : isBlank c = true) :
    scan .bare begun (c :: rest) = (scan .bare none rest).map (close begun ++ ·) := by
  have notBackslash : c ≠ '\\' := ne_of_isBlank blank (by decide)
  have notPipe : c ≠ '|' := ne_of_isBlank blank (by decide)
  have notAnd : c ≠ '&' := ne_of_isBlank blank (by decide)
  have notSemi : c ≠ ';' := ne_of_isBlank blank (by decide)
  rw [scan, if_pos blank]
  all_goals simp [notBackslash, notPipe, notAnd, notSemi]

/-- A word that has begun is a token once it ends. -/
theorem scan_of_endsWord {raw rest : Text} (ends : EndsWord rest) :
    scan .bare (some raw) rest = (scan .bare none rest).map (.word raw :: ·) := by
  cases rest with
  | nil => rfl
  | cons c rest =>
      rw [scan_of_isBlank _ _ ends, scan_of_isBlank _ _ ends]
      cases scan .bare none rest <;> rfl

/-- Between blanks a text is read as these tokens, whatever stands in the line behind it. -/
def ScansTo (text : Text) (tokens : List Token) : Prop :=
  ∀ rest, EndsWord rest → scan .bare none (text ++ rest) = (scan .bare none rest).map (tokens ++ ·)

/-- What a text is read as between blanks it is read as on its own. -/
theorem ScansTo.lex {text : Text} {tokens : List Token} (scans : ScansTo text tokens) :
    lex text = .ok tokens := by
  have alone := scans [] trivial
  rw [List.append_nil] at alone
  rw [Token.lex, alone]
  show Except.ok (tokens ++ []) = _
  rw [List.append_nil]

/-- A space keeps the tokens on either side apart. -/
theorem ScansTo.spaced {text other : Text} {tokens others : List Token}
    (scans : ScansTo text tokens) (scansToo : ScansTo other others) :
    ScansTo (text ++ ' ' :: other) (tokens ++ others) := by
  intro rest ends
  have blank : isBlank ' ' = true := by decide
  rw [List.append_assoc, List.cons_append, scans (' ' :: (other ++ rest)) blank,
    scan_of_isBlank none _ blank, scansToo rest ends]
  cases scan .bare none rest with
  | error quote => rfl
  | ok later => exact congrArg Except.ok (List.append_assoc tokens others later).symm

/-- So do the spaces between any number of texts. -/
theorem ScansTo.spacedAll {α : Type} {write : α → Text} {tokensOf : α → List Token} {text : Text}
    {tokens : List Token} (scans : ScansTo text tokens) (pieces : List α)
    (scansEach : ∀ piece ∈ pieces, ScansTo (write piece) (tokensOf piece)) :
    ScansTo (text ++ pieces.flatMap fun piece => ' ' :: write piece)
      (tokens ++ pieces.flatMap tokensOf) := by
  induction pieces generalizing text tokens with
  | nil => simpa using scans
  | cons piece pieces ih =>
      obtain ⟨here, behind⟩ := List.forall_mem_cons.mp scansEach
      have joined := ih (scans.spaced here) behind
      simpa using joined

/-- A glyph is a separator. -/
theorem scansTo_glyph (s : Separator) : ScansTo s.glyph [.separator s] := by
  intro rest ends
  cases s with
  | or => rfl
  | and => rfl
  | pipe =>
      rw [Separator.glyph, List.singleton_append, scan]
      · rfl
      · rintro later rfl
        exact absurd ends Bool.false_ne_true
  | semi => rw [Separator.glyph, List.singleton_append, scan]; rfl

end Token

end Errand.Shell
