/-
# Reading that restarts behind an error

A terminal has no machine for its text. It asks how far the bytes are a text, takes that much,
skips the bytes at which the check stopped and asks again behind them. The check stops at a byte
with which no character begins, or at bytes that begin a character up to a byte that cannot come
next; where the bytes end inside a character it stops for good.

The loop is stated here with nothing but the bytes of characters. It finds the characters that
bytes spell, so it and the decoder read the same text of all bytes. This is no matter of course:
the loop skips up to three bytes at a time and never looks at them again, while the rule of
spelling tries every byte.
-/
import Errand.Proofs.Text.Seams

namespace Errand.Utf8

/-- Bytes begin a character and do not complete it. -/
def Opens (bytes : List UInt8) : Prop :=
  ∃ c more, more ≠ [] ∧ String.utf8EncodeChar c = bytes ++ more

/-- Bytes in front of others at which a check for a text stops, where no character is written. -/
inductive Refused : List UInt8 → List UInt8 → Prop
  | first {byte : UInt8} (rest : List UInt8)
      (refuses : ∀ c others, String.utf8EncodeChar c ≠ byte :: others) : Refused [byte] rest
  | later {begun : List UInt8} {byte : UInt8} (rest : List UInt8) (some : begun ≠ [])
      (opens : Opens begun)
      (refuses : ∀ c others, String.utf8EncodeChar c ≠ begun ++ byte :: others) :
      Refused begun (byte :: rest)

/-- The loop over bytes and the characters that it finds. -/
inductive Restarts : List UInt8 → Text → Prop
  | valid (text : Text) : Restarts (encode text) text
  | cutOff (text : Text) {begun : List UInt8} (some : begun ≠ []) (opens : Opens begun) :
      Restarts (encode text ++ begun) text
  | refused (text : Text) {skipped rest : List UInt8} {found : Text}
      (refused : Refused skipped rest) (later : Restarts rest found) :
      Restarts (encode text ++ (skipped ++ rest)) (text ++ found)

/-! ## What is skipped -/

/-- No character is written with the bytes of another in front. -/
theorem eq_nil_of_encodeChar {c d : Char} {more : List UInt8}
    (longer : String.utf8EncodeChar d = String.utf8EncodeChar c ++ more) : more = [] := by
  have alone := pieces_encodeChar_append d []
  have read := pieces_encodeChar_append c more
  rw [List.append_nil, longer, read, List.cons.injEq] at alone
  have lossless := (spells_pieces more).flatMap_bytes
  rw [alone.2] at lossless
  exact lossless.symm

/-- Bytes that only go on with characters are stray. -/
theorem Spells.strays {bytes rest : List UInt8} {found : List Piece}
    (going : ∀ byte ∈ bytes, goesOn byte = true) (later : Spells rest found) :
    Spells (bytes ++ rest) (bytes.map .stray ++ found) := by
  induction bytes with
  | nil => exact later
  | cons byte bytes ih =>
      rw [List.forall_mem_cons] at going
      refine .stray (fun c behind same => ?_) (ih going.2)
      obtain ⟨first, others, isChar, begins, -⟩ := exists_encodeChar c
      rw [isChar, List.cons_append, List.cons.injEq] at same
      rw [← same.1, going.1] at begins
      cases begins

/-- A character that is never completed leaves only stray bytes. -/
theorem Opens.spells {begun rest : List UInt8} {found : List Piece} (opens : Opens begun)
    (noChar : ∀ c behind, begun ++ rest ≠ String.utf8EncodeChar c ++ behind)
    (later : Spells rest found) : Spells (begun ++ rest) (begun.map .stray ++ found) := by
  obtain ⟨c, more, -, isChar⟩ := opens
  cases begun with
  | nil => exact later
  | cons byte begun =>
      obtain ⟨first, others, written, -, going⟩ := exists_encodeChar c
      rw [isChar, List.cons_append, List.cons.injEq] at written
      refine .stray noChar (.strays (fun other member => going other ?_) later)
      rw [← written.2]
      exact List.mem_append_left more member

/-- No character is written in front of bytes that are cut off inside one. -/
theorem Opens.noChar {begun : List UInt8} (opens : Opens begun) (c : Char)
    (behind : List UInt8) : begun ≠ String.utf8EncodeChar c ++ behind := by
  obtain ⟨d, more, some, isChar⟩ := opens
  rintro rfl
  rw [List.append_assoc] at isChar
  exact some (List.append_eq_nil_iff.mp (eq_nil_of_encodeChar isChar)).2

/-- No character is written where a check stops. -/
theorem Refused.noChar {skipped rest : List UInt8} (refused : Refused skipped rest) (c : Char)
    (behind : List UInt8) : skipped ++ rest ≠ String.utf8EncodeChar c ++ behind := by
  intro same
  cases refused with
  | first rest refuses =>
      obtain ⟨first, others, isChar, -⟩ := exists_encodeChar c
      rw [isChar, List.cons_append, List.cons_append, List.cons.injEq] at same
      rw [← same.1] at isChar
      exact refuses c others isChar
  | @later _ byte rest _ opens refuses =>
      rcases List.append_eq_append_iff.mp same with ⟨taken, isChar, follows⟩ | ⟨left, whole, -⟩
      · cases taken with
        | nil => exact opens.noChar c [] (by rw [isChar, List.append_nil, List.append_nil])
        | cons next taken =>
            rw [List.cons_append, List.cons.injEq] at follows
            rw [← follows.1] at isChar
            exact refuses c taken isChar
      · exact opens.noChar c left whole

/-- Bytes that are skipped are stray, and those behind them are read without them. -/
theorem Refused.spells {skipped rest : List UInt8} {found : List Piece}
    (refused : Refused skipped rest) (later : Spells rest found) :
    Spells (skipped ++ rest) (skipped.map .stray ++ found) := by
  have noChar := refused.noChar
  cases refused with
  | first rest refuses => exact .stray noChar later
  | later rest some opens refuses => exact opens.spells noChar later

/-- A check stops wherever no character is written, or the end cuts one off. -/
theorem Opens.exists_refused {begun : List UInt8} (rest : List UInt8) (opens : Opens begun)
    (noChar : ∀ c behind, begun ++ rest ≠ String.utf8EncodeChar c ++ behind) :
    Opens (begun ++ rest) ∨
      ∃ skipped behind, begun ++ rest = skipped ++ behind ∧ Refused skipped behind := by
  induction rest generalizing begun with
  | nil => exact .inl (by rwa [List.append_nil])
  | cons byte rest ih =>
      by_cases comesNext : ∃ c others, String.utf8EncodeChar c = begun ++ byte :: others
      · obtain ⟨c, others, isChar⟩ := comesNext
        have longer : begun ++ byte :: rest = begun ++ [byte] ++ rest := by simp
        have opensToo : Opens (begun ++ [byte]) := by
          refine ⟨c, others, ?_, by simpa using isChar⟩
          rintro rfl
          exact noChar c rest (by rw [isChar, longer])
        rw [longer] at noChar ⊢
        exact ih opensToo noChar
      · simp only [not_exists] at comesNext
        by_cases none : begun = []
        · subst none
          exact .inr ⟨[byte], rest, rfl, .first rest comesNext⟩
        · exact .inr ⟨begun, byte :: rest, rfl, .later rest none opens comesNext⟩

/-! ## The loop -/

/-- The characters of a text are spelled in front of anything. -/
theorem Spells.encode (text : Text) {rest : List UInt8} {found : List Piece}
    (later : Spells rest found) : Spells (encode text ++ rest) (text.map .char ++ found) := by
  induction text with
  | nil => exact later
  | cons c text ih =>
      rw [encode_cons, List.append_assoc]
      exact .char c ih

/-- The characters of pieces that begin with a text and stray bytes. -/
theorem filterMap_char?_append (text : Text) (skipped : List UInt8) (found : List Piece) :
    (text.map Piece.char ++ (skipped.map Piece.stray ++ found)).filterMap Piece.char? =
      text ++ found.filterMap Piece.char? := by
  have texts : (text.map Piece.char).filterMap Piece.char? = text := by
    rw [List.filterMap_map]
    exact List.filterMap_some
  have strays : (skipped.map Piece.stray).filterMap Piece.char? = [] := by
    rw [List.filterMap_map]
    exact List.filterMap_eq_nil_iff.mpr fun _ _ => rfl
  rw [List.filterMap_append, List.filterMap_append, texts, strays, List.nil_append]

/-- What the loop finds is spelled. -/
theorem Restarts.exists_spells {bytes : List UInt8} {text : Text} (loop : Restarts bytes text) :
    ∃ found, Spells bytes found ∧ found.filterMap Piece.char? = text := by
  induction loop with
  | valid text =>
      refine ⟨pieces (encode text), spells_pieces _, ?_⟩
      exact decode_encode text
  | @cutOff text begun some opens =>
      have strays := opens.spells (by simpa using opens.noChar) .nil
      rw [List.append_nil] at strays
      exact ⟨_, .encode text strays, (filterMap_char?_append text begun []).trans (by simp)⟩
  | @refused text skipped rest _ refused later ih =>
      obtain ⟨found, spells, same⟩ := ih
      refine ⟨_, .encode text (refused.spells spells), ?_⟩
      rw [filterMap_char?_append, same]

/-- Bytes begin with a text, and where it ends no character is written. -/
theorem Spells.exists_longest {bytes : List UInt8} {found : List Piece}
    (spells : Spells bytes found) : ∃ text rest, bytes = Utf8.encode text ++ rest ∧
      ∀ c behind, rest ≠ String.utf8EncodeChar c ++ behind := by
  induction spells with
  | nil =>
      refine ⟨[], [], rfl, fun c behind same => ?_⟩
      obtain ⟨first, others, isChar, -⟩ := exists_encodeChar c
      rw [isChar] at same
      cases same
  | char c later ih =>
      obtain ⟨text, rest, rfl, noChar⟩ := ih
      exact ⟨c :: text, rest, by rw [encode_cons, List.append_assoc], noChar⟩
  | @stray byte rest found noChar later ih => exact ⟨[], byte :: rest, rfl, noChar⟩

/-- The loop ends, whatever the bytes are. -/
theorem exists_restarts (bytes : List UInt8) : ∃ text, Restarts bytes text := by
  induction length : bytes.length using Nat.strongRecOn generalizing bytes with
  | ind count ih =>
      obtain ⟨text, rest, rfl, noChar⟩ := (spells_pieces bytes).exists_longest
      have opensNone : Opens [] := ⟨'a', _, by decide, rfl⟩
      rcases opensNone.exists_refused rest noChar with opens | ⟨skipped, behind, whole, refused⟩
      · by_cases none : rest = []
        · subst none
          exact ⟨text, by rw [List.append_nil]; exact .valid text⟩
        · exact ⟨text, .cutOff text none opens⟩
      · rw [List.nil_append] at whole
        subst whole
        have some : 0 < skipped.length := by
          cases refused with
          | first rest refuses => exact Nat.one_pos
          | later rest some opens refuses => exact List.length_pos_iff.mpr some
        have shorter : behind.length < count := by
          simp only [List.length_append] at length
          omega
        obtain ⟨found, later⟩ := ih _ shorter behind rfl
        exact ⟨text ++ found, .refused text refused later⟩

/-- The loop finds the characters that are decoded, and no others. -/
theorem restarts_iff {bytes : List UInt8} {text : Text} :
    Restarts bytes text ↔ text = decode bytes := by
  have finds {text : Text} (loop : Restarts bytes text) : text = decode bytes := by
    obtain ⟨found, spells, rfl⟩ := loop.exists_spells
    rw [spells.eq_pieces, decode]
  constructor
  · exact finds
  · rintro rfl
    obtain ⟨text, loop⟩ := exists_restarts bytes
    rwa [finds loop] at loop

end Errand.Utf8
