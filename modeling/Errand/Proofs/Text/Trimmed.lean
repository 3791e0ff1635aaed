/-
# Trimmed texts

Trimming takes blanks from both ends of a text and nothing else, and what it leaves begins and ends
with no blank. So a trimmed text is not trimmed any further.

More text behind a text never changes what is trimmed in front. It may keep blanks that stood at
the end, which are inside the longer text, but it takes nothing away that was kept.
-/
import Errand.Text
import Mathlib.Data.List.TakeWhile

namespace Errand.Text

/-- A text that neither begins nor ends with a blank. -/
structure IsTrimmed (text : Text) : Prop where
  front : ∀ c ∈ text.head?, isBlank c = false
  back : ∀ c ∈ text.getLast?, isBlank c = false

theorem isTrimmed_nil : IsTrimmed [] where
  front := by
    intro c none
    cases none
  back := by
    intro c none
    cases none

theorem not_isBlank_of_head?_dropWhile {text : Text} {c : Char}
    (front : (text.dropWhile isBlank).head? = some c) : isBlank c = false := by
  have stopped := List.head?_dropWhile_not isBlank text
  rwa [front] at stopped

/-- Blanks are only taken from the end. -/
theorem trimEnd_isPrefix (text : Text) : text.trimEnd <+: text := by
  rw [trimEnd, ← List.reverse_suffix, List.reverse_reverse]
  exact List.dropWhile_suffix isBlank

theorem isTrimmed_trim (text : Text) : text.trim.IsTrimmed where
  front := by
    intro c front
    obtain ⟨trail, whole⟩ := text.trimStart.trimEnd_isPrefix
    apply not_isBlank_of_head?_dropWhile
    show text.trimStart.head? = some c
    rw [← whole, List.head?_append, show text.trimStart.trimEnd.head? = some c from front]
    rfl
  back := by
    intro c back
    rw [trim, trimEnd, List.getLast?_reverse] at back
    exact not_isBlank_of_head?_dropWhile back

/-- Trimming takes blanks from either end and nothing else. -/
theorem exists_trim (text : Text) : ∃ lead trail,
    text = lead ++ (text.trim ++ trail) ∧ (∀ c ∈ lead, isBlank c = true) ∧
      ∀ c ∈ trail, isBlank c = true := by
  have blanks (text : Text) : ∀ c ∈ text.takeWhile isBlank, isBlank c = true :=
    fun c member => List.mem_takeWhile_imp member
  refine ⟨text.takeWhile isBlank, (text.trimStart.reverse.takeWhile isBlank).reverse, ?_,
    blanks text, fun c member => blanks _ c (List.mem_reverse.mp member)⟩
  rw [Text.trim, Text.trimEnd, ← List.reverse_append, List.takeWhile_append_dropWhile,
    List.reverse_reverse, Text.trimStart, List.takeWhile_append_dropWhile]

/-! ## Trimming twice -/

/-- Nothing is dropped from a text that does not begin with a blank. -/
theorem dropWhile_isBlank {text : Text} (front : ∀ c ∈ text.head?, isBlank c = false) :
    text.dropWhile isBlank = text := by
  cases text with
  | nil => rfl
  | cons c text =>
      rw [List.dropWhile_cons_of_neg]
      rw [front c rfl]
      exact Bool.false_ne_true

/-- A trimmed text stays as it is. -/
theorem IsTrimmed.trim_eq {text : Text} (trimmed : text.IsTrimmed) : text.trim = text := by
  have back : ∀ c ∈ text.reverse.head?, isBlank c = false := by
    rw [List.head?_reverse]
    exact trimmed.back
  rw [trim, trimStart, dropWhile_isBlank trimmed.front, trimEnd, dropWhile_isBlank back,
    List.reverse_reverse]

/-! ## More text -/

/-- More text behind a text keeps all that is kept at its end. -/
theorem trimEnd_append (text more : Text) : text.trimEnd <+: (text ++ more).trimEnd := by
  rw [trimEnd, trimEnd, List.reverse_append, List.dropWhile_append]
  split
  · exact List.prefix_rfl
  · rw [List.reverse_append, List.reverse_reverse]
    exact text.trimEnd_isPrefix.trans (List.prefix_append _ _)

/-- The trimmed form of a text goes on as the text does. -/
theorem trim_mono {text whole : Text} (cut : text <+: whole) : text.trim <+: whole.trim := by
  obtain ⟨more, rfl⟩ := cut
  rw [trim, trim, trimStart, trimStart, List.dropWhile_append]
  split
  · next allBlank =>
      rw [List.isEmpty_iff.mp allBlank]
      exact List.nil_prefix
  · exact trimEnd_append _ more

end Errand.Text
