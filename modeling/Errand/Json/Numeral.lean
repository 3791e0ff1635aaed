/-
# Numbers in JSON

A numeral is a sign, a whole part without leading zeros, and perhaps decimals and an
exponent. As a value it must be a finite double-precision number, even where only whole
numbers are asked for.
-/
import Errand.Json.Fault
import Errand.Text.Decimal

namespace Errand.Json

/-- A number as it is written. -/
structure Numeral where
  isNegative : Bool
  whole : Text
  decimals : Option Text
  exponent : Option Int
  deriving DecidableEq, Repr

/-- The digits at the start of a text, with what follows them. There must be at least
one. -/
def digits (text : Text) : Except Fault (Text × Text) :=
  match text.takeWhile Char.isDigit, text with
  | [], [] => .error .cutShort
  | [], _ :: _ => .error .malformed
  | found, _ => .ok (found, text.dropWhile Char.isDigit)

/-- The digits of a whole part. A zero stands alone. -/
def wholePart (text : Text) : Except Fault (Text × Text) :=
  match text with
  | '0' :: c :: rest => if c.isDigit then .error .malformed else .ok (['0'], c :: rest)
  | _ => digits text

/-- The decimals, if there is a point. -/
def decimalPart (text : Text) : Except Fault (Option Text × Text) :=
  match text with
  | '.' :: rest => (digits rest).map fun (found, behind) => (some found, behind)
  | _ => .ok (none, text)

/-- The exponent behind its letter, with what follows it. -/
def signedExponent (text : Text) : Except Fault (Int × Text) :=
  let value (negative : Bool) (behind : Text) : Except Fault (Int × Text) :=
    (digits behind).map fun (found, behind) =>
      let size : Int := ((Decimal.digits? found).getD 0 : Nat)
      (if negative then -size else size, behind)
  match text with
  | '+' :: rest => value false rest
  | '-' :: rest => value true rest
  | _ => value false text

/-- The exponent, if there is one. -/
def exponentPart (text : Text) : Except Fault (Option Int × Text) :=
  match text with
  | c :: rest =>
    if c = 'e' || c = 'E' then (signedExponent rest).map fun (found, behind) => (some found, behind)
    else .ok (none, text)
  | [] => .ok (none, text)

/-- The numeral at the start of a text, with what follows it. -/
def numeral (text : Text) : Except Fault (Numeral × Text) := do
  let (isNegative, text) := match text with
    | '-' :: rest => (true, rest)
    | _ => (false, text)
  let (whole, text) ← wholePart text
  let (decimals, text) ← decimalPart text
  let (exponent, text) ← exponentPart text
  return (⟨isNegative, whole, decimals, exponent⟩, text)

/-- The size of a number as it is held while its digits are read: a whole number of 64
bits times a power of ten. -/
structure Magnitude where
  significand : Nat
  exponent : Int
  /-- Whether a digit has come that did not fit. -/
  isFull : Bool
  deriving DecidableEq, Repr

namespace Magnitude

/-- No digit yet. -/
def zero : Magnitude := ⟨0, 0, false⟩

/-- Whether one more digit fits. -/
def hasRoom (size : Magnitude) (digit : Nat) : Bool :=
  !size.isFull && size.significand * 10 + digit < UInt64.size

/-- One more digit of the whole part. From the first that does not fit on, digits only
count. -/
def addWhole (size : Magnitude) (digit : Nat) : Magnitude :=
  if size.hasRoom digit then { size with significand := size.significand * 10 + digit }
  else { size with exponent := size.exponent + 1, isFull := true }

/-- One more decimal. From the first that does not fit on, decimals have no effect. -/
def addDecimal (size : Magnitude) (digit : Nat) : Magnitude :=
  if size.hasRoom digit then
    { size with significand := size.significand * 10 + digit, exponent := size.exponent - 1 }
  else { size with isFull := true }

/-- A whole number rounded to the 53 bits of a double-precision number, a tie to the
even neighbour. -/
def rounded (n : Nat) : Nat :=
  if n < Nat.pow 2 53 then n
  else
    let unit := Nat.pow 2 (Nat.log2 n - 52)
    let below := n / unit
    let remainder := n % unit
    if unit < 2 * remainder || (unit = 2 * remainder && below % 2 = 1) then (below + 1) * unit
    else below * unit

/-- The least whole number that rounds to no finite double-precision number. -/
def doubleBound : Nat := Nat.pow 2 1024 - Nat.pow 2 970

/-- Whether the size is that of a finite double-precision number. Significand and power
are rounded before they are multiplied, and the powers of ten end with the 308th. -/
def isFinite (size : Magnitude) : Bool :=
  size.significand = 0 || size.exponent ≤ 0 ||
    (size.exponent ≤ 308 &&
      rounded size.significand * rounded (Nat.pow 10 size.exponent.toNat) < doubleBound)

end Magnitude

namespace Numeral

/-- The values of the digits of a text. -/
def digitValues (text : Text) : List Nat := text.map fun c => c.toNat - '0'.toNat

/-- The size of the number that a numeral writes. -/
def magnitude (numeral : Numeral) : Magnitude :=
  let whole := (digitValues numeral.whole).foldl Magnitude.addWhole Magnitude.zero
  let all := (digitValues (numeral.decimals.getD [])).foldl Magnitude.addDecimal
    { whole with isFull := false }
  { all with exponent := all.exponent + numeral.exponent.getD 0 }

/-- The value of a numeral that is written without sign, decimals and exponent. -/
def natural? (numeral : Numeral) : Option Nat :=
  if numeral.isNegative || numeral.decimals.isSome || numeral.exponent.isSome then none
  else Decimal.digits? numeral.whole

end Numeral

/-- The numeral at the start of a text as a value. -/
def number (text : Text) : Except Fault (Numeral × Text) := do
  let (found, rest) ← numeral text
  if found.magnitude.isFinite then return (found, rest) else throw .malformed

/-- What follows the numeral at the start of a text that nobody asks for. Any size
passes, and a numeral that ends too early is as wrong as any other. -/
def skipNumeral (text : Text) : Except Fault Text :=
  match numeral text with
  | .ok (_, rest) => .ok rest
  | .error _ => .error .malformed

end Errand.Json
