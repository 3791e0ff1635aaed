/-
# Numbers in text

Decimal numbers are read with an optional plus sign and any number of leading
zeros; no other character is allowed. Hexadecimal digits are written in lower case,
padded with zeros on the left.
-/
import Errand.Text

namespace Errand.Decimal

/-- The value of an ASCII decimal digit. -/
def digit? (c : Char) : Option Nat :=
  if '0' ≤ c ∧ c ≤ '9' then some (c.toNat - '0'.toNat) else none

/-- The number written by digits alone, continuing from `value`. -/
def digitsFrom? : Nat → Text → Option Nat
  | value, [] => some value
  | value, c :: rest => (digit? c).bind fun d => digitsFrom? (value * 10 + d) rest

/-- The number that a non-empty run of digits writes. -/
def digits? : Text → Option Nat
  | [] => none
  | text => digitsFrom? 0 text

/-- An unsigned number below `bound`: an optional plus sign, then digits. -/
def unsigned? (bound : Nat) (text : Text) : Option Nat :=
  let number := match text with
    | '+' :: rest => digits? rest
    | _ => digits? text
  number.filter (· < bound)

/-- The decimal digits of a number. -/
def ofNat (n : Nat) : Text := (Nat.toDigits 10 n)

/-- The decimal digits of a number, with a minus sign if it is negative. -/
def ofInt : Int → Text
  | .ofNat n => ofNat n
  | .negSucc n => '-' :: ofNat (n + 1)

/-- The text with `fill` in front of it until it has `width` characters. -/
def padLeft (width : Nat) (fill : Char) (text : Text) : Text :=
  List.replicate (width - text.length) fill ++ text

/-- A number in lower-case hexadecimal, at least `width` digits wide. -/
def hex (width : Nat) (n : Nat) : Text := padLeft width '0' (Nat.toDigits 16 n)

end Errand.Decimal
