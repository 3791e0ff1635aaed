/-
# Output without escapes

What no ESC stands in is stripped as it is decoded. A terminal reads it in a loop that takes what
is a text and restarts behind the bytes that are none, and the ground state shows what this loop
finds, up to the next ESC. The loop and the decoder find the same characters and give up the same
bytes, however malformed these are. So the two part in one thing: the recognizer drops the
characters that a terminal does not show.

This is not said of bytes behind an ESC. There a sequence that never ends takes in characters that
the decoder keeps.
-/
import Errand.Proofs.Output.Clean
import Errand.Proofs.Text.Restarts

namespace Errand.Output.Terminal

/-- What a piece shows is its character, if it has one and that is clean. -/
theorem shown_eq (piece : Utf8.Piece) : shown piece = (piece.char?.toList).filter (IsClean ·) := by
  cases piece with
  | stray byte => rfl
  | char c =>
      rw [shown, printable_eq, Utf8.Piece.char?, Option.toList_some, List.filter_singleton,
        cond_eq_ite]
      simp only [decide_eq_true_eq]

/-- Pieces show their clean characters. -/
theorem flatMap_shown (found : List Utf8.Piece) :
    found.flatMap shown = (found.filterMap Utf8.Piece.char?).filter (IsClean ·) := by
  rw [List.filterMap_eq_flatMap_toList, List.filter_flatMap]
  exact List.flatMap_congr fun piece _ => shown_eq piece

/-- An ESC shows nothing behind any bytes, and what it interrupts shows nothing either. -/
theorem flatMap_shown_step_escape (bytes : List UInt8) :
    (Utf8.step (Utf8.run none bytes).1 0x1B).2.flatMap shown = [] := by
  have apart : ∀ byte ∈ ([0x1B] : List UInt8).head?, Utf8.goesOn byte = false := by
    rintro byte ⟨⟩
    decide
  have together := Utf8.pieces_append bytes apart
  have whole := Utf8.piecesFrom_append none bytes [0x1B]
  have alone := Utf8.piecesFrom_append none bytes []
  rw [List.append_nil] at alone
  rw [Utf8.pieces, whole, Utf8.pieces, alone, List.append_assoc, List.append_cancel_left_eq,
    Utf8.piecesFrom_cons] at together
  have hidden : (Utf8.pieces [0x1B]).flatMap shown = [] := by decide
  have shows := congrArg (List.flatMap shown) together
  simp only [Utf8.piecesFrom, List.append_nil, List.reverse_reverse, List.flatMap_append,
    flatMap_shown_flush, hidden] at shows
  exact shows

/-- Up to an ESC the ground state shows what the loop finds, and the ESC is read behind it. -/
theorem plainText_of_restarts {bytes : List UInt8} {found : Text} (noEscape : 0x1B ∉ bytes)
    (loop : Utf8.Restarts bytes found) :
    plainText bytes = found.filter (IsClean ·) ∧
      ∀ rest, plainText (bytes ++ 0x1B :: rest) =
        found.filter (IsClean ·) ++ plainFrom [] .escape rest := by
  obtain rfl := Utf8.restarts_iff.mp loop
  have shows : plainText bytes = (Utf8.decode bytes).filter (IsClean ·) := by
    rw [plainText, State.start, plainFrom_ground none noEscape, flatMap_shown]
    rfl
  have settled := plainFrom_ground_append none noEscape []
  rw [List.append_nil] at settled
  refine ⟨shows, fun rest => ?_⟩
  rw [← shows, plainText, plainText, State.start, settled, plainFrom_ground_append none noEscape,
    plainFrom_cons, step_ground, if_pos rfl, flatMap_shown_step_escape]
  simp [plainFrom]

/-- Bytes without an ESC spell one thing, of which no byte is missing. The decoder keeps all of its
characters, and stripping keeps those of them that a terminal shows. -/
theorem unescaped_stripped_as_decoded {bytes : List UInt8} (noEscape : 0x1B ∉ bytes) :
    Utf8.decode? (strip bytes) = some ((Utf8.decode bytes).filter (IsClean ·)) ∧
      ∃ found, Utf8.Spells bytes found ∧ (∀ others, Utf8.Spells bytes others → others = found) ∧
        found.flatMap Utf8.Piece.bytes = bytes ∧
        Utf8.decode bytes = found.filterMap Utf8.Piece.char? := by
  constructor
  · obtain ⟨found, loop⟩ := Utf8.exists_restarts bytes
    obtain ⟨shows, -⟩ := plainText_of_restarts noEscape loop
    rw [decode?_strip, shows, Utf8.restarts_iff.mp loop]
  · have spells := Utf8.spells_pieces bytes
    exact ⟨Utf8.pieces bytes, spells, fun _ others => others.eq_pieces, spells.flatMap_bytes, rfl⟩

/-- An overlong form, a surrogate, a form that is cut off by a letter and one that is cut off by
the end are given up by both; a control character and a replacement character are decoded, but
not shown. -/
theorem malformed_stripped_as_decoded :
    let bytes : List UInt8 := [0x61, 0xC0, 0x80, 0xED, 0xA0, 0x80, 0xC2, 0x85, 0xF0, 0x9F, 0x62,
      0xEF, 0xBF, 0xBD, 0x0A, 0xE2, 0x82]
    0x1B ∉ bytes ∧ Utf8.decode? (strip bytes) = some ['a', 'b', '\n'] ∧
      Utf8.decode bytes = ['a', '\u0085', 'b', Utf8.replacement, '\n'] := by
  intro bytes
  have noEscape : 0x1B ∉ bytes := by decide
  have decoded : Utf8.decode bytes = ['a', '\u0085', 'b', Utf8.replacement, '\n'] := by decide
  obtain ⟨stripped, -⟩ := unescaped_stripped_as_decoded noEscape
  rw [decoded] at stripped
  exact ⟨noEscape, stripped, decoded⟩

end Errand.Output.Terminal
