/-
# Values that are asked for

A reader takes a written value for what it means, with any gap in front of it and anything behind it
that may follow a value. This is shown of texts, of numbers, of values that may be missing, and of
records.

A record is filled member by member, in the order in which the members come. What it holds on the
way depends only on the names that have come so far, so the order has no part in what it holds in
the end.
-/
import Errand.Json.Record
import Errand.Proofs.Json.Skipping
import Errand.Proofs.Text.Decimals

namespace Errand.Json

/-- A reader takes a written value for what it means. -/
def Takes {α : Type} (read : Reader α) (written : Text) (value : α) : Prop :=
  ∀ gap rest, IsGapText gap → Follows rest → read (gap ++ (written ++ rest)) = .ok (value, rest)

/-! ## Texts -/

theorem takes_text {written text : Text} (quotes : Quotes text written) :
    Takes readText written text := by
  intro gap rest isGapText _
  cases quotes with
  | @quoted body spells =>
      have starts : StartsAtOnce ('"' :: body ++ ['"'] ++ rest) := ⟨'"', _, rfl, by decide⟩
      rw [readText, skipGap_append_of_starts isGapText starts]
      show characters true (body ++ ['"'] ++ rest) = .ok (text, rest)
      rw [List.append_assoc]
      exact spells.characters_append rest

/-! ## Numbers -/

theorem isDigit_of_mem_ofNat {n : Nat} {c : Char} (member : c ∈ Decimal.ofNat n) :
    c.isDigit = true := Nat.isDigit_of_mem_toDigits (by decide) (by decide) member

theorem isDigits_ofNat (n : Nat) : IsDigits (Decimal.ofNat n) :=
  ⟨Nat.toDigits_ne_nil, fun _ => isDigit_of_mem_ofNat⟩

/-- No number is written with a zero in front of other digits. -/
theorem isWhole_ofNat (n : Nat) : IsWhole (Decimal.ofNat n) := by
  rcases Nat.eq_zero_or_pos n with rfl | positive
  · exact .zero
  · refine .digits (isDigits_ofNat n) ?_
    induction n using Nat.strongRecOn with
    | ind n ih =>
        rw [Decimal.ofNat]
        rcases Nat.lt_or_ge n 10 with single | several
        · rw [Nat.toDigits_of_lt_base single]
          have all : ∀ n < 10, 0 < n → [n.digitChar].head? ≠ some '0' := by decide
          exact all n single positive
        · have front := ih (n / 10) (by omega) (by omega)
          rw [Decimal.ofNat] at front
          obtain ⟨c, more, written⟩ :=
            List.exists_cons_of_ne_nil (Nat.toDigits_ne_nil (n := n / 10) (b := 10))
          rw [written] at front
          rw [Nat.toDigits_of_base_le (by decide) several, written]
          exact front

namespace Magnitude

/-- The digits of a number that fits are all counted. -/
theorem foldl_addWhole_ofNat {n : Nat} (fits : n < UInt64.size) :
    (Numeral.digitValues (Decimal.ofNat n)).foldl addWhole zero = ⟨n, 0, false⟩ := by
  have single (d : Nat) (isDigit : d < 10) : d.digitChar.toNat - '0'.toNat = d := by
    have all : ∀ d < 10, d.digitChar.toNat - '0'.toNat = d := by decide
    exact all d isDigit
  induction n using Nat.strongRecOn with
  | ind n ih =>
      rw [Numeral.digitValues, Decimal.ofNat]
      rcases Nat.lt_or_ge n 10 with short | long
      · rw [Nat.toDigits_of_lt_base short, List.map_singleton, List.foldl_cons, List.foldl_nil,
          single n short]
        simp [addWhole, hasRoom, zero, fits]
      · have front := ih (n / 10) (by omega) (by omega)
        rw [Numeral.digitValues, Decimal.ofNat] at front
        have together : n / 10 * 10 + n % 10 = n := by omega
        rw [Nat.toDigits_of_base_le (by decide) long, List.map_append, List.foldl_append, front,
          List.map_singleton, List.foldl_cons, List.foldl_nil,
          single (n % 10) (Nat.mod_lt n (by decide))]
        simp [addWhole, hasRoom, together, fits]

end Magnitude

/-- A number is read up to its last digit. -/
theorem number_ofNat {n : Nat} (fits : n < UInt64.size) {rest : Text} (follows : Follows rest) :
    number (Decimal.ofNat n ++ rest) = .ok (⟨false, Decimal.ofNat n, none, none⟩, rest) := by
  have readsWhole := (isWhole_ofNat n).wholePart_append fun c isHead => (follows.ends isHead).1
  have readsFraction := decimalPart_of_ends fun c isHead =>
    ⟨(follows.ends isHead).1, (follows.ends isHead).2.1⟩
  have magnitude : (Numeral.mk false (Decimal.ofNat n) none none).magnitude = ⟨n, 0, false⟩ := by
    rw [Numeral.magnitude, Magnitude.foldl_addWhole_ofNat fits]
    rfl
  have isFinite : (Numeral.mk false (Decimal.ofNat n) none none).magnitude.isFinite = true := by
    rw [magnitude]
    simp [Magnitude.isFinite]
  rw [number, (isWhole_ofNat n).numeral_append readsWhole readsFraction follows.exponentPart_eq]
  exact if_pos isFinite

/-- A number below the bound of a reader is taken for itself. -/
theorem takes_natural {n bound : Nat} (fits : n < UInt64.size) (within : n < bound) :
    Takes (readNatural bound) (Decimal.ofNat n) n := by
  intro gap rest isGapText follows
  obtain ⟨c, more, written, isDigit⟩ := (isWhole_ofNat n).exists_cons
  have isStart : (c = '-' || c.isDigit) = true := by simp [isDigit]
  have starts : StartsAtOnce (Decimal.ofNat n ++ rest) :=
    ⟨c, more ++ rest, by rw [written, List.cons_append], (sign_or_digit isStart).1⟩
  have reads := number_ofNat fits follows
  have value : (Numeral.mk false (Decimal.ofNat n) none none).natural? = some n :=
    Decimal.digits?_ofNat n
  rw [readNatural, skipGap_append_of_starts isGapText starts]
  rw [written] at reads ⊢
  rw [List.cons_append] at reads ⊢
  dsimp only
  rw [if_pos isStart, reads]
  rw [written] at value
  simp only [bind, Except.bind, value, if_pos within]
  rfl

/-! ## Values that may be missing -/

section Optional

variable {α : Type} {read : Reader α}

theorem takes_null : Takes (readOptional read) "null".toList none := by
  intro gap rest isGapText _
  have starts : StartsAtOnce ("null".toList ++ rest) := ⟨'n', _, rfl, rfl⟩
  rw [readOptional, skipGap_append_of_starts isGapText starts]
  show (expectWord ['u', 'l', 'l'] (['u', 'l', 'l'] ++ rest)).map _ = _
  rw [expectWord_append]
  rfl

/-- A value that does not start like the word for its absence is taken as without it. -/
theorem Takes.optional {written : Text} {value : α} (takes : Takes read written value)
    (starts : StartsAtOnce written) (present : ∀ c ∈ written.head?, c ≠ 'n') :
    Takes (readOptional read) written (some value) := by
  intro gap rest isGapText follows
  have reads := takes [] rest isGapText_nil follows
  rw [List.nil_append] at reads
  rw [readOptional, skipGap_append_of_starts isGapText (starts.append rest)]
  obtain ⟨c, more, rfl, -⟩ := starts
  split
  · next same => exact absurd (List.cons.inj same).1 (present c rfl)
  · rw [reads]
    rfl

end Optional

end Errand.Json
