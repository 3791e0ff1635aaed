/-
# Stripped output is clean

Text reaches the output on two ways only: control bytes are acted on in the middle of a
sequence, and characters come out of the ground state. Both let through clean characters and
no others, so what is stripped is clean text, whatever state the recognizer is in.

The other way round a text without ESC never leaves the ground state, where it is read as it is
decoded. Clean text is such a text, and none of its characters is dropped.
-/
import Errand.Output.Raw
import Errand.Output.Terminal
import Errand.Proofs.Text.Encoding
import Mathlib.Data.List.Basic

namespace Errand.Output.Terminal

/-- A character that a terminal shows, or a newline or a tab. -/
structure IsClean (c : Char) : Prop where
  noControl : c.toNat < 0x20 → c = '\n' ∨ c = '\t'
  noHighControl : ¬ (0x80 ≤ c.toNat ∧ c.toNat ≤ 0x9F)
  noReplacement : c ≠ Utf8.replacement

instance (c : Char) : Decidable (IsClean c) :=
  decidable_of_iff ((c.toNat < 0x20 → c = '\n' ∨ c = '\t') ∧
    ¬ (0x80 ≤ c.toNat ∧ c.toNat ≤ 0x9F) ∧ c ≠ Utf8.replacement)
    ⟨fun ⟨noControl, noHighControl, noReplacement⟩ => ⟨noControl, noHighControl, noReplacement⟩,
      fun ⟨noControl, noHighControl, noReplacement⟩ => ⟨noControl, noHighControl, noReplacement⟩⟩

theorem isClean_newline : IsClean '\n' := by decide

theorem isClean_tab : IsClean '\t' := by decide

/-! ## What comes through -/

/-- The ground state lets clean characters through and drops all others. -/
theorem printable_eq (c : Char) : printable c = if IsClean c then [c] else [] := by
  by_cases isNewline : c = '\n'
  · rw [isNewline, if_pos isClean_newline]
    rfl
  by_cases isTab : c = '\t'
  · rw [isTab, if_pos isClean_tab]
    rfl
  have clean : IsClean c ↔
      ¬ (c.toNat < 0x20 ∨ (0x80 ≤ c.toNat ∧ c.toNat < 0xA0) ∨ c = Utf8.replacement) := by
    constructor
    · rintro ⟨noControl, noHighControl, noReplacement⟩ (low | high | replaced)
      · exact (noControl low).elim isNewline isTab
      · omega
      · exact noReplacement replaced
    · intro spared
      simp only [not_or] at spared
      exact ⟨fun low => absurd low spared.1, by omega, spared.2.2⟩
  by_cases isOther : c.toNat < 0x20 ∨ (0x80 ≤ c.toNat ∧ c.toNat < 0xA0) ∨ c = Utf8.replacement
  · rw [if_neg fun spared => clean.mp spared isOther]
    simp_all [printable, Utf8.replacement, or_assoc]
  · rw [if_pos (clean.mpr isOther)]
    simp_all [printable, Utf8.replacement]

theorem isClean_of_mem_printable {c shownChar : Char} (member : shownChar ∈ printable c) :
    IsClean shownChar := by
  rw [printable_eq] at member
  split at member
  · next clean =>
      obtain rfl := List.mem_singleton.mp member
      exact clean
  · cases member

theorem isClean_of_mem_control {byte : UInt8} {c : Char} (member : c ∈ control byte) :
    IsClean c := by
  rw [control] at member
  split at member
  · obtain rfl := List.mem_singleton.mp member
    exact isClean_newline
  split at member
  · obtain rfl := List.mem_singleton.mp member
    exact isClean_tab
  · cases member

/-- In text a byte lets through what of its characters a terminal shows. -/
theorem step_ground (unfinished : Utf8.State) (byte : UInt8) :
    step (.ground unfinished) byte =
      (if byte = 0x1B then .escape else .ground (Utf8.step unfinished byte).1,
        (Utf8.step unfinished byte).2.flatMap shown) := by
  simp only [step]
  split <;> rfl

/-- Outside text a byte lets through what it is as a control byte, or nothing. -/
theorem step_outside {state : State} (outside : ∀ unfinished, state ≠ .ground unfinished)
    (byte : UInt8) : (step state byte).2 = control byte ∨ (step state byte).2 = [] := by
  cases state with
  | ground unfinished => exact absurd rfl (outside unfinished)
  | oscString | dcsPassthrough =>
      simp only [step]
      split <;> exact .inr rfl
  | dcsIgnore | otherString | dcsEntry | dcsParam | dcsIntermediate => exact .inr rfl
  | escape | csiEntry | csiParam | csiIntermediate | csiIgnore =>
      simp only [step, inControl]
      split
      · exact .inl rfl
      · exact .inr rfl
  | escapeIntermediate =>
      simp only [step]
      split
      · exact .inl rfl
      · split <;> exact .inr rfl

/-- In every state a byte lets only clean characters through. -/
theorem isClean_of_mem_step {state : State} {byte : UInt8} {c : Char}
    (member : c ∈ (step state byte).2) : IsClean c := by
  by_cases inText : ∃ unfinished, state = .ground unfinished
  · obtain ⟨unfinished, rfl⟩ := inText
    rw [step_ground] at member
    obtain ⟨piece, -, inPiece⟩ := List.mem_flatMap.mp member
    cases piece with
    | char other => exact isClean_of_mem_printable inPiece
    | stray other => cases inPiece
  · rcases step_outside (not_exists.mp inText) byte with acted | silent
    · rw [acted] at member
      exact isClean_of_mem_control member
    · rw [silent] at member
      cases member

/-- What comes through of any bytes is clean, whichever state they are met in. -/
theorem isClean_of_mem_plainFrom {state : State} {bytes : List UInt8} {c : Char}
    (member : c ∈ plainFrom [] state bytes) : IsClean c := by
  induction bytes generalizing state with
  | nil => cases member
  | cons byte bytes ih =>
      rw [plainFrom_cons] at member
      rcases List.mem_append.mp member with here | later
      · exact isClean_of_mem_step here
      · exact ih later

/-! ## Text without ESC -/

/-- Bytes of a character that never ended show nothing. -/
theorem flatMap_shown_flush (unfinished : Utf8.State) : unfinished.flush.flatMap shown = [] := by
  cases unfinished with
  | none => rfl
  | some begun => simp [Utf8.State.flush, List.flatMap_map, shown]

/-- Bytes without an ESC leave the recognizer in the ground state, where it has read what a
decoder reads. -/
theorem plainFrom_ground_append (unfinished : Utf8.State) {bytes : List UInt8}
    (noEscape : 0x1B ∉ bytes) (rest : List UInt8) :
    plainFrom [] (.ground unfinished) (bytes ++ rest) =
      (Utf8.run unfinished bytes).2.flatMap shown ++
        plainFrom [] (.ground (Utf8.run unfinished bytes).1) rest := by
  induction bytes generalizing unfinished with
  | nil => rfl
  | cons byte bytes ih =>
      rw [List.mem_cons, not_or] at noEscape
      rw [List.cons_append, plainFrom_cons, step_ground, if_neg fun same => noEscape.1 same.symm,
        ih _ noEscape.2, Utf8.run_cons, List.flatMap_append, List.append_assoc]

/-- So without an ESC the whole output is read as it is decoded. -/
theorem plainFrom_ground (unfinished : Utf8.State) {bytes : List UInt8}
    (noEscape : 0x1B ∉ bytes) :
    plainFrom [] (.ground unfinished) bytes =
      (Utf8.piecesFrom [] unfinished bytes).flatMap shown := by
  have ground := plainFrom_ground_append unfinished noEscape []
  have decoded := Utf8.piecesFrom_append unfinished bytes []
  rw [List.append_nil] at ground decoded
  rw [ground, decoded, List.flatMap_append, Utf8.piecesFrom, List.append_nil, List.reverse_reverse,
    flatMap_shown_flush]
  rfl

/-- A text has the byte ESC only if it has the character. -/
theorem escape_not_mem_encode {text : Text} (clean : ∀ c ∈ text, IsClean c) :
    0x1B ∉ Utf8.encode text := by
  intro member
  obtain ⟨c, inText, inBytes⟩ := List.mem_flatMap.mp member
  have isEscape : (0x1B : UInt8).toNat = c.toNat :=
    (Utf8.written_encodeChar c).eq_of_mem inBytes (by decide)
  rcases (clean c inText).noControl (by rw [← isEscape]; decide) with rfl | rfl
  · cases isEscape
  · cases isEscape

/-- No character of clean text is dropped. -/
theorem flatMap_shown_char {text : Text} (clean : ∀ c ∈ text, IsClean c) :
    (text.map Utf8.Piece.char).flatMap shown = text := by
  rw [List.flatMap_map]
  calc text.flatMap printable = text.flatMap (fun c => [c]) := by
        refine List.flatMap_congr fun c member => ?_
        rw [printable_eq, if_pos (clean c member)]
    _ = text := List.flatMap_singleton' text

/-- Clean text comes through as it is. -/
theorem plainText_encode {text : Text} (clean : ∀ c ∈ text, IsClean c) :
    plainText (Utf8.encode text) = text := by
  have ground := plainFrom_ground none (escape_not_mem_encode clean)
  rw [plainText, State.start, ground, ← Utf8.pieces, Utf8.pieces_encode, flatMap_shown_char clean]

/-! ## Stripping -/

/-- What is stripped is a text, so decoding it drops nothing. -/
theorem decode?_strip (bytes : List UInt8) :
    Utf8.decode? (strip bytes) = some (plainText bytes) :=
  Utf8.decode?_encode (plainText bytes)

/-- Clean text is stripped of nothing. -/
theorem strip_encode {text : Text} (clean : ∀ c ∈ text, IsClean c) :
    strip (Utf8.encode text) = Utf8.encode text := by
  rw [strip, plainText_encode clean]

/-- What is stripped is clean, so stripping it again changes nothing. -/
theorem strip_strip (bytes : List UInt8) : strip (strip bytes) = strip bytes :=
  strip_encode fun _ => isClean_of_mem_plainFrom

/-- Normalizing what is stripped only trims it. -/
theorem settle_strip (bytes : List UInt8) : settle (strip bytes) = (plainText bytes).trim := by
  rw [settle, strip, Utf8.decode_encode]

end Errand.Output.Terminal
