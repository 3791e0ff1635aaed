/-
# Where bytes can be parted

What a byte from 0x80 to 0xBF spells depends on the bytes in front of it: it may go on with a
character that began there. Any other byte goes on with none, so whatever stands in front of it,
finished or not, is read as if nothing followed. This is where a reader finds its place again
behind bytes that are no text, and it holds although the second byte of a character has a range of
its own: the bytes kept out of that range are stray there and begin nothing.

A text begins with such a byte. So it is read as itself wherever it stands, and what stands around
it is read as it would be alone. Nothing of the kind holds of a place inside a character.
-/
import Errand.Proofs.Text.Decoding
import Mathlib.Data.List.Basic

namespace Errand.Utf8

/-- Whether a byte may go on with a character that has begun. -/
def goesOn (byte : UInt8) : Bool := 0x80 ≤ byte && byte ≤ 0xBF

/-! ## Inside a character -/

theorem goesOn_continuation (value : Nat) : goesOn (continuation value) = true := by
  obtain ⟨least, most⟩ := continuation_within value
  rw [goesOn, Bool.and_eq_true, decide_eq_true_eq, decide_eq_true_eq]
  exact ⟨least, most⟩

theorem goesOn_eq_false {byte : UInt8} (apart : byte.toNat < 0x80 ∨ 0xC0 ≤ byte.toNat) :
    goesOn byte = false := by
  simp only [goesOn, Bool.and_eq_false_iff, decide_eq_false_iff_not, UInt8.le_iff_toNat_le,
    UInt8.reduceToNat]
  omega

/-- A number is written with one byte that begins it and others that go on with it. -/
theorem Written.exists_cons {value : Nat} {bytes : List UInt8} (written : Written value bytes) :
    ∃ first others, bytes = first :: others ∧ goesOn first = false ∧
      ∀ byte ∈ others, goesOn byte = true := by
  have all (values : List Nat) : ∀ byte ∈ values.map continuation, goesOn byte = true := by
    intro byte member
    obtain ⟨value, -, rfl⟩ := List.mem_map.mp member
    exact goesOn_continuation value
  cases written with
  | one is most => exact ⟨_, _, rfl, goesOn_eq_false (.inl (by omega)), all []⟩
  | two is least most => exact ⟨_, _, rfl, goesOn_eq_false (.inr (by omega)), all [value]⟩
  | three is least most scalar =>
      exact ⟨_, _, rfl, goesOn_eq_false (.inr (by omega)), all [value / 0x40, value]⟩
  | four is least most =>
      exact ⟨_, _, rfl, goesOn_eq_false (.inr (by omega)),
        all [value / 0x1000, value / 0x40, value]⟩

/-- So is a character. -/
theorem exists_encodeChar (c : Char) : ∃ first others, String.utf8EncodeChar c = first :: others ∧
    goesOn first = false ∧ ∀ byte ∈ others, goesOn byte = true :=
  (written_encodeChar c).exists_cons

/-! ## Parting -/

section Parting

variable {bytes more : List UInt8} {found others : List Piece}

/-- What bytes spell is spelled as well where others stand behind them, unless those could go on
with a character. A character across the place would need bytes from behind it, and the first of
them refuses. -/
theorem Spells.append (spells : Spells bytes found) (later : Spells more others)
    (apart : ∀ byte ∈ more.head?, goesOn byte = false) :
    Spells (bytes ++ more) (found ++ others) := by
  induction spells with
  | nil => exact later
  | char c _ ih =>
      rw [List.append_assoc]
      exact .char c ih
  | @stray byte rest found noChar _ ih =>
      refine .stray (fun c behind same => ?_) ih
      have isChar : String.utf8EncodeChar c ++ behind = (byte :: rest) ++ more := same.symm
      rcases List.append_eq_append_iff.mp isChar with ⟨left, whole, -⟩ | ⟨taken, whole, follows⟩
      · exact noChar c left whole
      cases taken with
      | nil => exact noChar c [] (by rw [List.append_nil, whole, List.append_nil])
      | cons next taken =>
          obtain ⟨first, later, written, -, going⟩ := exists_encodeChar c
          rw [written, List.cons_append, List.cons.injEq] at whole
          have refuses := apart next (by rw [follows]; rfl)
          rw [going next (by rw [whole.2]; simp)] at refuses
          cases refuses

/-- Bytes are read apart from those in front of them, unless they could go on with a character. -/
theorem pieces_append (bytes : List UInt8) (apart : ∀ byte ∈ more.head?, goesOn byte = false) :
    pieces (bytes ++ more) = pieces bytes ++ pieces more :=
  ((spells_pieces bytes).append (spells_pieces more) apart).eq_pieces.symm

theorem decode_append (bytes : List UInt8) (apart : ∀ byte ∈ more.head?, goesOn byte = false) :
    decode (bytes ++ more) = decode bytes ++ decode more := by
  rw [decode, pieces_append bytes apart, List.filterMap_append]
  rfl

end Parting

/-- The bytes of a text are read as the text, whatever stands behind them. -/
theorem decode_encode_append (text : Text) (behind : List UInt8) :
    decode (encode text ++ behind) = text ++ decode behind := by
  have alone := decode_encode text
  rw [decode, pieces_encode] at alone
  rw [decode, pieces, piecesFrom_encode, List.filterMap_append, alone]
  rfl

/-- A text begins with a byte that goes on with nothing. -/
theorem head?_encode_append {text : Text} (some : text ≠ []) (behind : List UInt8) :
    ∀ byte ∈ (encode text ++ behind).head?, goesOn byte = false := by
  obtain ⟨c, text, rfl⟩ := List.exists_cons_of_ne_nil some
  obtain ⟨first, others, isChar, begins, -⟩ := exists_encodeChar c
  intro byte member
  rw [encode_cons, isChar, List.cons_append, List.cons_append, List.head?_cons,
    Option.mem_some_iff] at member
  rw [← member]
  exact begins

/-! ## Texts and their bytes -/

/-- Bytes are those of a text if and only if decoding drops none of them. -/
theorem isValidUTF8_iff {bytes : List UInt8} :
    bytes.toByteArray.IsValidUTF8 ↔ encode (decode bytes) = bytes := by
  constructor
  · rintro ⟨text, same⟩
    have whole : bytes = encode text := by
      have sameLists := congrArg (fun array => array.data.toList) same
      simpa [List.utf8Encode, encode] using sameLists
    rw [whole, decode_encode]
  · intro same
    rw [← same]
    exact ⟨decode bytes, rfl⟩

/-- The bytes of the characters of some pieces are among the bytes of the pieces. -/
theorem encode_filterMap_sublist (found : List Piece) :
    (encode (found.filterMap Piece.char?)).Sublist (found.flatMap Piece.bytes) := by
  induction found with
  | nil => exact .slnil
  | cons piece found ih =>
      cases piece with
      | char c => exact List.Sublist.append_left ih (String.utf8EncodeChar c)
      | stray byte => exact .cons byte ih

/-- Decoding leaves out bytes and does nothing else. -/
theorem encode_decode_sublist (bytes : List UInt8) :
    (encode (decode bytes)).Sublist bytes := by
  have among := encode_filterMap_sublist (pieces bytes)
  rwa [(spells_pieces bytes).flatMap_bytes] at among

/-- Bytes of a text keep their meaning between any other bytes, and these keep theirs. Decoding is
the identity on the bytes of texts and on no others, and of any bytes it gives some in their
order. -/
theorem valid_text_survives (before behind : List UInt8) :
    (∀ valid : List UInt8, valid ≠ [] → valid.toByteArray.IsValidUTF8 →
      encode (decode valid) = valid ∧
        decode (before ++ valid ++ behind) = decode before ++ decode valid ++ decode behind) ∧
      (∀ bytes : List UInt8, bytes.toByteArray.IsValidUTF8 ↔ encode (decode bytes) = bytes) ∧
      (∀ text, decode (encode text) = text) ∧
      ∀ bytes, (encode (decode bytes)).Sublist bytes := by
  refine ⟨fun valid some isText => ?_, fun _ => isValidUTF8_iff, decode_encode,
    encode_decode_sublist⟩
  have whole := isValidUTF8_iff.mp isText
  have someText : decode valid ≠ [] := by
    intro none
    rw [none] at whole
    exact some whole.symm
  refine ⟨whole, ?_⟩
  calc decode (before ++ valid ++ behind)
      = decode (before ++ (encode (decode valid) ++ behind)) := by rw [whole, List.append_assoc]
    _ = decode before ++ decode (encode (decode valid) ++ behind) :=
        decode_append before (head?_encode_append someText behind)
    _ = decode before ++ (decode valid ++ decode behind) := by rw [decode_encode_append]
    _ = decode before ++ decode valid ++ decode behind := (List.append_assoc _ _ _).symm

/-- An unfinished character of four bytes stands in front of a text and the rest of another one
behind it. -/
theorem euro_survives_between_halves :
    [0xE2, 0x82, 0xAC] ≠ ([] : List UInt8) ∧
      [0xE2, 0x82, 0xAC].toByteArray.IsValidUTF8 ∧
      decode ([0x61, 0xF0, 0x9F, 0x98] ++ [0xE2, 0x82, 0xAC] ++ [0xA9, 0xFF, 0x62]) =
        ['a', '€', 'b'] := by
  have some : [0xE2, 0x82, 0xAC] ≠ ([] : List UInt8) := by decide
  have isText : [0xE2, 0x82, 0xAC].toByteArray.IsValidUTF8 := ⟨['€'], by decide⟩
  obtain ⟨survives, -⟩ := valid_text_survives [0x61, 0xF0, 0x9F, 0x98] [0xA9, 0xFF, 0x62]
  refine ⟨some, isText, (survives _ some isText).2.trans ?_⟩
  decide

/-- Without a text in between, the bytes on both sides may be those of one character. -/
example : decode ([0xC3] ++ [] ++ [0xA9]) = ['é'] ∧ decode [0xC3] ++ decode [0xA9] = [] := by
  decide

end Errand.Utf8
