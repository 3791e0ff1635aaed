/-
# Written numbers are read back

The decimal digits of a number, read from the left, give the number back: what was read before a
digit is what stands in front of it, ten times over. A number is written with at least one digit and
without a sign, so the readers that allow a sign see none.
-/
import Errand.Text.Decimal

namespace Errand.Decimal

theorem digit?_digitChar {n : Nat} (single : n < 10) : digit? n.digitChar = some n := by
  have all : ∀ n < 10, digit? n.digitChar = some n := by decide
  exact all n single

/-- Digits behind others go on from the value of those. -/
theorem digitsFrom?_append (value : Nat) (text more : Text) :
    digitsFrom? value (text ++ more) =
      (digitsFrom? value text).bind fun value => digitsFrom? value more := by
  induction text generalizing value with
  | nil => rfl
  | cons c text ih =>
      rw [List.cons_append, digitsFrom?, digitsFrom?, Option.bind_assoc]
      congr 1
      funext d
      exact ih _

theorem digitsFrom?_ofNat (n : Nat) : digitsFrom? 0 (ofNat n) = some n := by
  induction n using Nat.strongRecOn with
  | ind n ih =>
      rw [ofNat]
      rcases Nat.lt_or_ge n 10 with single | several
      · rw [Nat.toDigits_of_lt_base single, digitsFrom?, digit?_digitChar single, Option.bind_some,
          digitsFrom?, Nat.zero_mul, Nat.zero_add]
      · have front : digitsFrom? 0 (Nat.toDigits 10 (n / 10)) = some (n / 10) :=
          ih (n / 10) (by omega)
        have last : digit? (n % 10).digitChar = some (n % 10) :=
          digit?_digitChar (Nat.mod_lt n (by decide))
        rw [Nat.toDigits_of_base_le (by decide) several, digitsFrom?_append, front,
          Option.bind_some, digitsFrom?, last, Option.bind_some, digitsFrom?]
        congr 1
        omega

/-- A number is read back from its digits. -/
theorem digits?_ofNat (n : Nat) : digits? (ofNat n) = some n := by
  have read := digitsFrom?_ofNat n
  rw [digits?]
  · exact read
  · exact Nat.toDigits_ne_nil

/-- No sign stands in front of the digits of a number. -/
theorem ofNat_ne_plus (n : Nat) (rest : Text) : ofNat n ≠ '+' :: rest := by
  intro signed
  have digit := @Nat.isDigit_of_mem_toDigits 10 n '+' (by decide) (by decide)
    (by rw [show Nat.toDigits 10 n = '+' :: rest from signed]; exact List.mem_cons_self)
  cases digit

/-- A number within the bound of a reader is read back. -/
theorem unsigned?_ofNat {n bound : Nat} (within : n < bound) :
    unsigned? bound (ofNat n) = some n := by
  rw [unsigned?]
  · rw [digits?_ofNat, Option.filter_some, if_pos (decide_eq_true within)]
  · exact ofNat_ne_plus n

end Errand.Decimal
