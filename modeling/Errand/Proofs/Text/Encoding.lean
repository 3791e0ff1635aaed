/-
# Written characters are read back

The bytes of a character take the machine from the start back to the start, and what it settles
on the way is that character. So the bytes of a text spell the characters of the text and
nothing else: decoding them loses nothing and finds no stray byte.

A character is followed as a number, from which its bytes are cut six bits at a time. The
number of bits left tells how many bytes are owed; only the byte behind the first one has a
range of its own.
-/
import Errand.Text.Utf8

namespace Errand.Utf8

/-! ## One character -/

/-- A byte behind the first of a character, with the last six bits of `value`. -/
def continuation (value : Nat) : UInt8 := UInt8.ofNat (value % 0x40 + 0x80)

theorem toNat_continuation (value : Nat) : (continuation value).toNat = value % 0x40 + 0x80 := by
  rw [continuation, UInt8.toNat_ofNat']
  omega

/-- The next byte of a character may be any that begins with the bits 10. -/
theorem continuation_within (value : Nat) :
    0x80 ≤ continuation value ∧ continuation value ≤ 0xBF := by
  simp only [UInt8.le_iff_toNat_le, toNat_continuation, UInt8.reduceToNat]
  omega

/-! ## Several bytes -/

/-- The state behind some bytes, and what the bytes settle. -/
def run : State → List UInt8 → State × List Piece
  | state, [] => (state, [])
  | state, byte :: rest =>
    let (next, settled) := step state byte
    let (last, later) := run next rest
    (last, settled ++ later)

theorem run_cons (state : State) (byte : UInt8) (rest : List UInt8) :
    run state (byte :: rest) = ((run (step state byte).1 rest).1,
      (step state byte).2 ++ (run (step state byte).1 rest).2) := rfl

/-- What bytes settle comes first, whatever stands behind them. -/
theorem piecesFrom_append (state : State) (bytes rest : List UInt8) :
    piecesFrom [] state (bytes ++ rest) =
      (run state bytes).2 ++ piecesFrom [] (run state bytes).1 rest := by
  induction bytes generalizing state with
  | nil => rfl
  | cons byte bytes ih => rw [List.cons_append, piecesFrom_cons, ih, run_cons, List.append_assoc]

theorem run_append (state : State) (bytes rest : List UInt8) :
    run state (bytes ++ rest) = ((run (run state bytes).1 rest).1,
      (run state bytes).2 ++ (run (run state bytes).1 rest).2) := by
  induction bytes generalizing state with
  | nil => rfl
  | cons byte bytes ih => rw [List.cons_append, run_cons, ih, run_cons, List.append_assoc]

section Continuation

variable {unfinished : Unfinished} {value : Nat}

/-- The only byte that is owed completes the character. -/
theorem run_last (owes : unfinished.owed = 1) (read : unfinished.value = value / 0x40)
    (within : unfinished.low ≤ continuation value ∧ continuation value ≤ unfinished.high) :
    run (some unfinished) [continuation value] = (none, [.char (Char.ofNat value)]) := by
  have whole : unfinished.value * 64 + ((continuation value).toNat - 0x80) = value := by
    rw [read, toNat_continuation]
    omega
  rw [run_cons, step, Unfinished.step, if_pos within, if_pos (by omega), whole]
  rfl

/-- Any byte before the last leaves one byte less to come. -/
theorem run_next {owed : Nat} (rest : List UInt8) (owes : unfinished.owed = owed + 2)
    (read : unfinished.value = value / 0x40)
    (within : unfinished.low ≤ continuation value ∧ continuation value ≤ unfinished.high) :
    run (some unfinished) (continuation value :: rest) =
      run (some ⟨unfinished.bytes ++ [continuation value], owed + 1, value, 0x80, 0xBF⟩) rest := by
  have whole : unfinished.value * 64 + ((continuation value).toNat - 0x80) = value := by
    rw [read, toNat_continuation]
    omega
  rw [run_cons, step, Unfinished.step, if_pos within, if_neg (by omega), whole, owes]
  rfl

end Continuation

section FirstByte

variable {value : Nat} {byte : UInt8}

theorem begin_one (is : byte.toNat = value) (most : value ≤ 0x7F) :
    begin byte = (none, [.char (Char.ofNat value)]) := by
  rw [begin, if_pos, is]
  rwa [UInt8.le_iff_toNat_le, is]

theorem begin_two (is : byte.toNat = value / 0x40 + 0xC0) (least : 0x80 ≤ value)
    (most : value ≤ 0x7FF) :
    begin byte = (some ⟨[byte], 1, value / 0x40, 0x80, 0xBF⟩, []) := by
  simp only [begin, UInt8.le_iff_toNat_le, UInt8.lt_iff_toNat_lt, is, UInt8.reduceToNat]
  rw [if_neg (by omega), if_neg (by omega), if_pos (by omega), Nat.add_sub_cancel]

/-- The range of the second byte only keeps out what a shorter form or a surrogate would
need. -/
theorem begin_three (is : byte.toNat = value / 0x1000 + 0xE0) (least : 0x800 ≤ value)
    (most : value ≤ 0xFFFF) (scalar : value < 0xD800 ∨ 0xDFFF < value) :
    ∃ low high : UInt8,
      (low ≤ continuation (value / 0x40) ∧ continuation (value / 0x40) ≤ high) ∧
        begin byte = (some ⟨[byte], 2, value / 0x1000, low, high⟩, []) := by
  simp only [begin, UInt8.le_iff_toNat_le, UInt8.lt_iff_toNat_lt, ← UInt8.toNat_inj, is,
    toNat_continuation, UInt8.reduceToNat]
  rw [if_neg (by omega), if_neg (by omega), if_neg (by omega)]
  by_cases isE0 : value / 0x1000 = 0
  · refine ⟨0xA0, 0xBF, by simp only [UInt8.reduceToNat]; omega, ?_⟩
    rw [if_pos (by omega), isE0]
  by_cases isED : value / 0x1000 = 13
  · refine ⟨0x80, 0x9F, by simp only [UInt8.reduceToNat]; omega, ?_⟩
    rw [if_neg (by omega), if_pos (by omega), isED]
  · refine ⟨0x80, 0xBF, by simp only [UInt8.reduceToNat]; omega, ?_⟩
    rw [if_neg (by omega), if_neg (by omega), if_pos (by omega), Nat.add_sub_cancel]

/-- Here the range keeps out shorter forms and what is beyond the last code point. -/
theorem begin_four (is : byte.toNat = value / 0x40000 + 0xF0) (least : 0x10000 ≤ value)
    (most : value ≤ 0x10FFFF) :
    ∃ low high : UInt8,
      (low ≤ continuation (value / 0x1000) ∧ continuation (value / 0x1000) ≤ high) ∧
        begin byte = (some ⟨[byte], 3, value / 0x40000, low, high⟩, []) := by
  simp only [begin, UInt8.le_iff_toNat_le, UInt8.lt_iff_toNat_lt, ← UInt8.toNat_inj, is,
    toNat_continuation, UInt8.reduceToNat]
  rw [if_neg (by omega), if_neg (by omega), if_neg (by omega), if_neg (by omega),
    if_neg (by omega), if_neg (by omega)]
  by_cases isF0 : value / 0x40000 = 0
  · refine ⟨0x90, 0xBF, by simp only [UInt8.reduceToNat]; omega, ?_⟩
    rw [if_pos (by omega), isF0]
  by_cases isF4 : value / 0x40000 = 4
  · refine ⟨0x80, 0x8F, by simp only [UInt8.reduceToNat]; omega, ?_⟩
    rw [if_neg (by omega), if_neg (by omega), if_pos (by omega), isF4]
  · refine ⟨0x80, 0xBF, by simp only [UInt8.reduceToNat]; omega, ?_⟩
    rw [if_neg (by omega), if_pos (by omega), Nat.add_sub_cancel]

end FirstByte

/-- A first byte settles nothing while others are owed. -/
theorem run_of_begin {byte : UInt8} {unfinished : Unfinished}
    (begins : begin byte = (some unfinished, [])) (rest : List UInt8) :
    run none (byte :: rest) = run (some unfinished) rest := by
  rw [run_cons, step, begins]
  rfl

/-- How the number of a character is written, by the count of its bytes. -/
inductive Written (value : Nat) : List UInt8 → Prop
  | one {byte : UInt8} (is : byte.toNat = value) (most : value ≤ 0x7F) : Written value [byte]
  | two {byte : UInt8} (is : byte.toNat = value / 0x40 + 0xC0) (least : 0x80 ≤ value)
      (most : value ≤ 0x7FF) : Written value [byte, continuation value]
  | three {byte : UInt8} (is : byte.toNat = value / 0x1000 + 0xE0) (least : 0x800 ≤ value)
      (most : value ≤ 0xFFFF) (scalar : value < 0xD800 ∨ 0xDFFF < value) :
      Written value [byte, continuation (value / 0x40), continuation value]
  | four {byte : UInt8} (is : byte.toNat = value / 0x40000 + 0xF0) (least : 0x10000 ≤ value)
      (most : value ≤ 0x10FFFF) : Written value
        [byte, continuation (value / 0x1000), continuation (value / 0x40), continuation value]

/-- Every character is written in one of these ways. -/
theorem written_encodeChar (c : Char) : Written c.toNat (String.utf8EncodeChar c) := by
  have valid : c.val.toNat < 0xD800 ∨ 0xDFFF < c.val.toNat ∧ c.val.toNat < 0x110000 := c.valid
  simp only [Char.toNat, String.utf8EncodeChar]
  split
  · exact .one (by rw [UInt8.toNat_ofNat']; omega) (by omega)
  split
  · exact .two (by rw [UInt8.toNat_ofNat']; omega) (by omega) (by omega)
  split
  · exact .three (by rw [UInt8.toNat_ofNat']; omega) (by omega) (by omega) (by omega)
  · exact .four (by rw [UInt8.toNat_ofNat']; omega) (by omega) (by omega)

/-- What is written is read back as the one character of that number. -/
theorem Written.run {value : Nat} {bytes : List UInt8} (written : Written value bytes) :
    Utf8.run none bytes = (none, [.char (Char.ofNat value)]) := by
  cases written with
  | one is most =>
      rw [run_cons, step, begin_one is most]
      rfl
  | two is least most =>
      rw [run_of_begin (begin_two is least most)]
      exact run_last rfl rfl (continuation_within value)
  | three is least most scalar =>
      obtain ⟨low, high, within, begins⟩ := begin_three is least most scalar
      have split : value / 0x1000 = value / 0x40 / 0x40 := by omega
      rw [run_of_begin begins, run_next _ rfl split within]
      exact run_last rfl rfl (continuation_within value)
  | four is least most =>
      obtain ⟨low, high, within, begins⟩ := begin_four is least most
      have split : value / 0x40000 = value / 0x1000 / 0x40 := by omega
      have splitToo : value / 0x1000 = value / 0x40 / 0x40 := by omega
      rw [run_of_begin begins, run_next _ rfl split within]
      refine (run_next _ rfl splitToo (continuation_within _)).trans ?_
      exact run_last rfl rfl (continuation_within value)

/-- Only characters below 0x80 have bytes below 0x80, and those have no other. -/
theorem Written.eq_of_mem {value : Nat} {bytes : List UInt8} (written : Written value bytes)
    {byte : UInt8} (member : byte ∈ bytes) (small : byte.toNat < 0x80) : byte.toNat = value := by
  have large (value : Nat) : 0x80 ≤ (continuation value).toNat := by
    rw [toNat_continuation]
    omega
  cases written with
  | one is most =>
      obtain rfl := List.mem_singleton.mp member
      exact is
  | two is | three is | four is =>
      simp only [List.mem_cons, List.not_mem_nil, or_false] at member
      rcases member with rfl | member
      · omega
      · obtain ⟨other, rfl⟩ : ∃ other, byte = continuation other := by
          rcases member with rfl | rfl | rfl <;> exact ⟨_, rfl⟩
        exact absurd small (Nat.not_lt.mpr (large other))

/-! ## Texts -/

theorem encode_cons (c : Char) (text : Text) :
    encode (c :: text) = String.utf8EncodeChar c ++ encode text := rfl

theorem encode_append (text more : Text) : encode (text ++ more) = encode text ++ encode more :=
  List.flatMap_append

/-- The bytes of a text are read as its characters, and no character is left unfinished. -/
theorem run_encode (text : Text) : run none (encode text) = (none, text.map .char) := by
  induction text with
  | nil => rfl
  | cons c text ih =>
      rw [encode_cons, run_append, (written_encodeChar c).run, ih, Char.ofNat_toNat]
      rfl

/-- The bytes of a text spell its characters, whatever stands behind them. -/
theorem piecesFrom_encode (text : Text) (rest : List UInt8) :
    piecesFrom [] none (encode text ++ rest) = text.map .char ++ piecesFrom [] none rest := by
  rw [piecesFrom_append, run_encode]

theorem pieces_encode (text : Text) : pieces (encode text) = text.map .char := by
  have read := piecesFrom_encode text []
  rw [List.append_nil] at read
  rw [pieces, read]
  exact List.append_nil _

/-- Decoding gives back the text that was encoded. -/
theorem decode_encode (text : Text) : decode (encode text) = text := by
  rw [decode, pieces_encode, List.filterMap_map]
  exact List.filterMap_some

/-- So does strict decoding, since no byte is stray. -/
theorem decode?_encode (text : Text) : decode? (encode text) = some text := by
  have read := decode_encode text
  rw [decode, pieces_encode] at read
  simp [decode?, pieces_encode, read]

end Errand.Utf8
