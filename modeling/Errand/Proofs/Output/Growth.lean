/-
# More output

Output can be cut off anywhere: inside a character, inside a control sequence, or right before
bytes that belong to no text. What it shows by then is settled. A byte lets text through when it is
read or never, and what is held back for bytes to come is at most an unfinished character, of which
nothing is shown. So the rest of the output only adds to the end, and it is read in the state that
the first part has left.
-/
import Errand.Proofs.Output.Clean
import Mathlib.Data.List.Infix

namespace Errand

/-! ## Decoding -/

namespace Utf8

/-- A character that never ended has no text. -/
theorem filterMap_flush (state : State) : state.flush.filterMap Piece.char? = [] := by
  cases state with
  | none => rfl
  | some unfinished =>
      rw [State.flush, List.filterMap_map]
      exact List.filterMap_eq_nil_iff.mpr fun _ _ => rfl

/-- Bytes are decoded by what they settle, and the bytes behind them in the state that they
leave. -/
theorem decode_append_eq (bytes more : List UInt8) :
    decode (bytes ++ more) = decode bytes ++
      (piecesFrom [] (run none bytes).1 more).filterMap Piece.char? := by
  have settled : decode bytes = (run none bytes).2.filterMap Piece.char? := by
    have read := piecesFrom_append none bytes []
    rw [List.append_nil, piecesFrom, List.append_nil, List.reverse_reverse] at read
    rw [decode, pieces, read, List.filterMap_append, filterMap_flush, List.append_nil]
  rw [settled, decode, pieces, piecesFrom_append, List.filterMap_append]

/-- More bytes only add to the text. -/
theorem decode_mono {bytes whole : List UInt8} (cut : bytes <+: whole) :
    decode bytes <+: decode whole := by
  obtain ⟨more, rfl⟩ := cut
  rw [decode_append_eq]
  exact List.prefix_append _ _

end Utf8

/-! ## Stripping -/

namespace Output.Terminal

/-- The state that bytes leave. -/
def State.behind (state : State) (bytes : List UInt8) : State :=
  bytes.foldl (fun state byte => (step state byte).1) state

/-- Whatever state bytes are met in, what they let through comes first, and the bytes behind them
are read in the state that they leave. -/
theorem plainFrom_append (state : State) (bytes more : List UInt8) :
    plainFrom [] state (bytes ++ more) =
      plainFrom [] state bytes ++ plainFrom [] (state.behind bytes) more := by
  induction bytes generalizing state with
  | nil => rfl
  | cons byte bytes ih =>
      rw [List.cons_append, plainFrom_cons, plainFrom_cons, ih, List.append_assoc]
      rfl

theorem plainText_mono {bytes whole : List UInt8} (cut : bytes <+: whole) :
    plainText bytes <+: plainText whole := by
  obtain ⟨more, rfl⟩ := cut
  rw [plainText, plainText, plainFrom_append]
  exact List.prefix_append _ _

/-- More output only adds to what is left of it. -/
theorem strip_mono {bytes whole : List UInt8} (cut : bytes <+: whole) :
    strip bytes <+: strip whole := by
  obtain ⟨later, whole⟩ := plainText_mono cut
  rw [strip, strip, ← whole, Utf8.encode_append]
  exact List.prefix_append _ _

end Output.Terminal

end Errand
