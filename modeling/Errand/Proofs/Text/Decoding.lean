/-
# What bytes spell

Bytes need not be the bytes of a text. Where those of a character stand they are read as that
character; a byte that begins none is stray, and reading goes on right behind it. This rule knows
of no states and of no ranges of bytes, and there is one way to follow it.

The machine follows it. A character that has begun is only ever completed by bytes with which it
is written. When it is given up, all its bytes are stray: the first one because no character is
written there, the others because they can begin no character.
-/
import Errand.Proofs.Text.Encoding
import Mathlib.Algebra.Group.Nat.Defs
import Mathlib.Data.List.Basic

namespace Errand.Utf8

/-- What bytes spell: the characters that are written there, and the bytes between them with
which no character begins. -/
inductive Spells : List UInt8 → List Piece → Prop
  | nil : Spells [] []
  | char (c : Char) {rest : List UInt8} {found : List Piece} (later : Spells rest found) :
      Spells (String.utf8EncodeChar c ++ rest) (.char c :: found)
  | stray {byte : UInt8} {rest : List UInt8} {found : List Piece}
      (noChar : ∀ c behind, byte :: rest ≠ String.utf8EncodeChar c ++ behind)
      (later : Spells rest found) : Spells (byte :: rest) (.stray byte :: found)

/-- The pieces lose no byte. -/
theorem Spells.flatMap_bytes {bytes : List UInt8} {found : List Piece}
    (spells : Spells bytes found) : found.flatMap Piece.bytes = bytes := by
  induction spells with
  | nil => rfl
  | char c later ih => rw [List.flatMap_cons, ih, Piece.bytes]
  | stray noChar later ih => rw [List.flatMap_cons, ih, Piece.bytes]; rfl

/-! ## Characters that have begun -/

/-- The numbers of characters. -/
theorem toNat_ofNat {value : Nat} (valid : value.isValidChar) :
    (Char.ofNat value).toNat = value := by
  rw [Char.ofNat, dif_pos valid]
  rfl

/-- A number is written in one way. -/
theorem Written.unique {value : Nat} {bytes others : List UInt8} (written : Written value bytes)
    (writtenToo : Written value others) : bytes = others := by
  cases written <;> cases writtenToo <;> first | omega | skip
  all_goals
    simp only [List.cons.injEq, and_true, ← UInt8.toNat_inj]
    omega

/-- What is written is the bytes of a character. -/
theorem Written.eq_encodeChar {value : Nat} {bytes : List UInt8} (written : Written value bytes) :
    bytes = String.utf8EncodeChar (Char.ofNat value) := by
  have valid : value.isValidChar := by
    cases written <;> simp only [Nat.isValidChar] <;> omega
  have writtenToo := written_encodeChar (Char.ofNat value)
  rw [toNat_ofNat valid] at writtenToo
  exact written.unique writtenToo

/-- The last bytes of a number of which this many are owed. -/
def owedBytes : Nat → Nat → List UInt8
  | 0, _ => []
  | owed + 1, value => continuation (value / 64 ^ owed) :: owedBytes owed value

/-- A character that has begun is written with its bytes so far and those it is owed, whichever
of the next bytes that it allows comes. -/
structure Unfinished.HasBegun (unfinished : Unfinished) : Prop where
  least : 0x80 ≤ unfinished.low
  most : unfinished.high ≤ 0xBF
  writes : ∃ owed, unfinished.owed = owed + 1 ∧
    ∀ value, value / 64 ^ (owed + 1) = unfinished.value →
    unfinished.low ≤ continuation (value / 64 ^ owed) →
    continuation (value / 64 ^ owed) ≤ unfinished.high →
    Written value (unfinished.bytes ++ owedBytes (owed + 1) value)

/-- A first byte begins a character if all that it allows to come writes one. -/
theorem exists_hasBegun {byte : UInt8} {owed value : Nat} {low high : UInt8} (least : 0x80 ≤ low)
    (most : high ≤ 0xBF)
    (writes : ∀ number, number / 64 ^ (owed + 1) = value →
      low.toNat ≤ number / 64 ^ owed % 0x40 + 0x80 →
      number / 64 ^ owed % 0x40 + 0x80 ≤ high.toNat →
      Written number (byte :: owedBytes (owed + 1) number)) :
    ∃ unfinished : Unfinished, (some (Unfinished.mk [byte] (owed + 1) value low high), []) =
        ((some unfinished, []) : State × List Piece) ∧
      unfinished.bytes = [byte] ∧ unfinished.HasBegun := by
  refine ⟨_, rfl, rfl, least, most, owed, rfl, fun number same lower upper => ?_⟩
  rw [UInt8.le_iff_toNat_le, toNat_continuation] at lower upper
  exact writes number same lower upper

section FirstByte

variable {byte : UInt8} {value : Nat} {low high : UInt8}

/-- The next byte is bounded below where a shorter form would do, and above where a surrogate
would be written. -/
theorem exists_hasBegun_three (is : byte.toNat = value + 0xE0) (top : value ≤ 0xF)
    (least : 0x80 ≤ low) (most : high ≤ 0xBF) (longer : value = 0 → 0xA0 ≤ low.toNat)
    (scalar : value = 0xD → high.toNat ≤ 0x9F) :
    ∃ unfinished : Unfinished, (some (Unfinished.mk [byte] 2 value low high), []) =
        ((some unfinished, []) : State × List Piece) ∧
      unfinished.bytes = [byte] ∧ unfinished.HasBegun := by
  refine exists_hasBegun least most fun number same lower upper => ?_
  simp only [Nat.reduceAdd, Nat.reducePow] at same lower upper
  have written := @Written.three number byte (by omega) (by omega) (by omega) (by omega)
  simpa [owedBytes] using written

/-- The next byte is bounded below where a shorter form would do, and above behind the last code
point. -/
theorem exists_hasBegun_four (is : byte.toNat = value + 0xF0) (top : value ≤ 4)
    (least : 0x80 ≤ low) (most : high ≤ 0xBF) (longer : value = 0 → 0x90 ≤ low.toNat)
    (scalar : value = 4 → high.toNat ≤ 0x8F) :
    ∃ unfinished : Unfinished, (some (Unfinished.mk [byte] 3 value low high), []) =
        ((some unfinished, []) : State × List Piece) ∧
      unfinished.bytes = [byte] ∧ unfinished.HasBegun := by
  refine exists_hasBegun least most fun number same lower upper => ?_
  simp only [Nat.reduceAdd, Nat.reducePow] at same lower upper
  have written := @Written.four number byte (by omega) (by omega) (by omega)
  simpa [owedBytes] using written

end FirstByte

/-- Where a character may begin, a byte is one, begins one or is stray. -/
theorem begin_cases (byte : UInt8) :
    (∃ c, begin byte = (none, [.char c]) ∧ [byte] = String.utf8EncodeChar c) ∨
      begin byte = (none, [.stray byte]) ∨
      ∃ unfinished : Unfinished, begin byte = (some unfinished, []) ∧ unfinished.bytes = [byte] ∧
        unfinished.HasBegun := by
  generalize begins : begin byte = result
  simp only [begin, UInt8.le_iff_toNat_le, UInt8.lt_iff_toNat_lt, ← UInt8.toNat_inj,
    UInt8.reduceToNat] at begins
  split at begins
  · next small => exact .inl ⟨_, begins.symm, Written.eq_encodeChar (.one rfl small)⟩
  split at begins
  · exact .inr (.inl begins.symm)
  subst begins
  refine .inr ?_
  split
  · refine .inr (exists_hasBegun (by decide) (by decide) fun number same _ _ => ?_)
    simp only [Nat.reduceAdd, Nat.pow_one] at same
    have written := @Written.two number byte (by omega) (by omega) (by omega)
    simpa [owedBytes] using written
  split
  · exact .inr (exists_hasBegun_three (by omega) (by decide) (by decide) (by decide) (by decide)
      (by decide))
  split
  · exact .inr (exists_hasBegun_three (by omega) (by decide) (by decide) (by decide) (by decide)
      (by decide))
  split
  · exact .inr (exists_hasBegun_three (by omega) (by omega) (by decide) (by decide) (by omega)
      (by omega))
  split
  · exact .inr (exists_hasBegun_four (by omega) (by decide) (by decide) (by decide) (by decide)
      (by decide))
  split
  · exact .inr (exists_hasBegun_four (by omega) (by omega) (by decide) (by decide) (by omega)
      (by omega))
  split
  · exact .inr (exists_hasBegun_four (by omega) (by decide) (by decide) (by decide) (by decide)
      (by decide))
  · exact .inl rfl

/-- No character begins with a byte that goes on with one. -/
theorem begin_continuation {byte : UInt8} (least : 0x80 ≤ byte) (most : byte ≤ 0xBF) :
    begin byte = (none, [.stray byte]) := by
  rw [UInt8.le_iff_toNat_le] at least most
  simp only [UInt8.reduceToNat] at least most
  simp only [begin, UInt8.le_iff_toNat_le, UInt8.lt_iff_toNat_lt, UInt8.reduceToNat]
  rw [if_neg (by omega), if_pos (by omega)]

section Unfinished

variable {unfinished : Unfinished} {byte : UInt8}

/-- A byte that is allowed to come completes a character or goes on with it. -/
theorem Unfinished.HasBegun.step_cases (hasBegun : unfinished.HasBegun)
    (within : unfinished.low ≤ byte ∧ byte ≤ unfinished.high) :
    (∃ c, unfinished.step byte = (none, [.char c]) ∧
      unfinished.bytes ++ [byte] = String.utf8EncodeChar c) ∨
    ∃ next : Unfinished, unfinished.step byte = (some next, []) ∧
      next.bytes = unfinished.bytes ++ [byte] ∧ next.HasBegun := by
  obtain ⟨least, most, owed, owes, writes⟩ := hasBegun
  have lower := UInt8.le_iff_toNat_le.mp (UInt8.le_trans least within.1)
  have upper := UInt8.le_iff_toNat_le.mp (UInt8.le_trans within.2 most)
  simp only [UInt8.reduceToNat] at lower upper
  let value := unfinished.value * 64 + (byte.toNat - 0x80)
  have before : value / 64 = unfinished.value := by omega
  have isNext : continuation value = byte := by
    rw [← UInt8.toNat_inj, toNat_continuation]
    omega
  rw [Unfinished.step, if_pos within]
  cases owed with
  | zero =>
      have written := writes value before (by simpa [isNext] using within.1)
        (by simpa [isNext] using within.2)
      simp only [owedBytes, Nat.pow_zero, Nat.div_one, isNext] at written
      rw [if_pos (by omega)]
      exact .inl ⟨Char.ofNat value, rfl, written.eq_encodeChar⟩
  | succ owed =>
      rw [if_neg (by omega)]
      refine .inr ⟨_, rfl, rfl, UInt8.le_refl 0x80, UInt8.le_refl 0xBF, owed, by simp only; omega,
        fun number same _ _ => ?_⟩
      have first : continuation (number / 64 ^ (owed + 1)) = byte := by
        rw [same]
        exact isNext
      have written := writes number
        (by rw [Nat.pow_succ, ← Nat.div_div_eq_div_mul, same]; exact before)
        (by rw [first]; exact within.1) (by rw [first]; exact within.2)
      rw [owedBytes, first] at written
      simpa using written

/-- Any other byte is read as if the character had never begun. -/
theorem Unfinished.step_of_not_within
    (outside : ¬ (unfinished.low ≤ byte ∧ byte ≤ unfinished.high)) :
    unfinished.step byte = ((begin byte).1, unfinished.bytes.map .stray ++ (begin byte).2) := by
  rw [Unfinished.step, if_neg outside]

/-- A character that has begun is completed by bytes with which it is written, or all its bytes
are stray and the others are read without them. A byte that was allowed to come can begin no
character, so it is stray as well when the character is given up behind it. -/
theorem Unfinished.HasBegun.piecesFrom_cases (hasBegun : unfinished.HasBegun)
    (rest : List UInt8) :
    (∃ c behind, unfinished.bytes ++ rest = String.utf8EncodeChar c ++ behind ∧
      piecesFrom [] (some unfinished) rest = .char c :: piecesFrom [] none behind) ∨
    piecesFrom [] (some unfinished) rest =
      unfinished.bytes.map .stray ++ piecesFrom [] none rest := by
  induction rest generalizing unfinished with
  | nil => exact .inr (by simp [piecesFrom, State.flush])
  | cons byte rest ih =>
      rw [piecesFrom_cons, Utf8.step]
      by_cases within : unfinished.low ≤ byte ∧ byte ≤ unfinished.high
      · rcases hasBegun.step_cases within with
          ⟨c, completes, isChar⟩ | ⟨next, goesOn, longer, begun⟩
        · rw [completes]
          refine .inl ⟨c, rest, ?_, rfl⟩
          rw [← isChar, List.append_assoc]
          rfl
        · rw [goesOn]
          rcases ih begun with ⟨c, behind, same, completed⟩ | strays
          · refine .inl ⟨c, behind, ?_, completed⟩
            rw [← same, longer, List.append_assoc]
            rfl
          · have alone := begin_continuation (UInt8.le_trans hasBegun.least within.1)
              (UInt8.le_trans within.2 hasBegun.most)
            refine .inr (strays.trans ?_)
            rw [longer, piecesFrom_cons none, Utf8.step, alone]
            simp
      · rw [Unfinished.step_of_not_within within, piecesFrom_cons none, Utf8.step]
        exact .inr (List.append_assoc _ _ _)

end Unfinished

/-- Reading one more byte in front: a character is read where one is written, and otherwise the
byte is stray. -/
theorem pieces_cons (byte : UInt8) (rest : List UInt8) :
    (∃ c behind, byte :: rest = String.utf8EncodeChar c ++ behind ∧
      pieces (byte :: rest) = .char c :: pieces behind) ∨
    pieces (byte :: rest) = .stray byte :: pieces rest := by
  rw [pieces, piecesFrom_cons, step]
  rcases begin_cases byte with
    ⟨c, begins, isChar⟩ | strays | ⟨unfinished, begins, isFirst, hasBegun⟩
  · rw [begins]
    exact .inl ⟨c, rest, by rw [← isChar]; rfl, rfl⟩
  · rw [strays]
    exact .inr rfl
  · rw [begins]
    have read := hasBegun.piecesFrom_cases rest
    rw [isFirst] at read
    exact read

/-- A character that is written in front is read. -/
theorem pieces_encodeChar_append (c : Char) (rest : List UInt8) :
    pieces (String.utf8EncodeChar c ++ rest) = .char c :: pieces rest := by
  rw [pieces, piecesFrom_append, (written_encodeChar c).run, Char.ofNat_toNat]
  rfl

/-- The machine reads what bytes spell. -/
theorem spells_pieces (bytes : List UInt8) : Spells bytes (pieces bytes) := by
  induction length : bytes.length using Nat.strongRecOn generalizing bytes with
  | ind count ih =>
      cases bytes with
      | nil => exact .nil
      | cons byte rest =>
          rcases pieces_cons byte rest with ⟨c, behind, same, read⟩ | strays
          · have some : 0 < (String.utf8EncodeChar c).length := by
              rw [String.length_utf8EncodeChar]
              exact c.utf8Size_pos
            have shorter : behind.length < count := by
              rw [← length, same, List.length_append]
              omega
            rw [read, same]
            exact .char c (ih _ shorter behind rfl)
          · have shorter : rest.length < count := by rw [← length]; exact Nat.lt_succ_self _
            rw [strays]
            refine .stray (fun c behind same => ?_) (ih _ shorter rest rfl)
            rw [same, pieces_encodeChar_append] at strays
            cases strays

/-- Bytes spell one thing. -/
theorem Spells.eq_pieces {bytes : List UInt8} {found : List Piece} (spells : Spells bytes found) :
    found = pieces bytes := by
  induction spells with
  | nil => rfl
  | char c later ih => rw [pieces_encodeChar_append, ih]
  | @stray byte rest found noChar later ih =>
      rcases pieces_cons byte rest with ⟨c, behind, same, -⟩ | strays
      · exact absurd same (noChar c behind)
      · rw [strays, ih]

/-- Strict decoding reads the bytes of a text and no others. -/
theorem decode?_eq_some_iff {bytes : List UInt8} {text : Text} :
    decode? bytes = some text ↔ bytes = encode text := by
  constructor
  · intro decoded
    simp only [decode?, List.filterMap_length_eq_length] at decoded
    split at decoded
    · next allChars =>
        have lossless := (spells_pieces bytes).flatMap_bytes
        rw [← lossless, ← Option.some.inj decoded, encode, List.filterMap_eq_flatMap_toList,
          List.flatMap_assoc]
        refine List.flatMap_congr fun piece member => ?_
        cases piece with
        | char c => exact (List.append_nil _).symm
        | stray byte => cases allChars _ member
    · cases decoded
  · rintro rfl
    exact decode?_encode text

end Errand.Utf8
