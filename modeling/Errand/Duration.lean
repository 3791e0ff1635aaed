/-
# Spans of time

A duration is a whole number of nanoseconds. It is written with the largest of the
units seconds, milliseconds, microseconds and nanoseconds that it reaches, and with
as many decimals as it needs.
-/
import Errand.Text.Decimal

namespace Errand

/-- A span of time. -/
structure Duration where
  nanos : Nat
  deriving DecidableEq, Repr

namespace Duration

/-- So many seconds. -/
def ofSecs (secs : Nat) : Duration := ⟨secs * 1000000000⟩

/-- So many milliseconds. -/
def ofMillis (millis : Nat) : Duration := ⟨millis * 1000000⟩

/-- The whole seconds of a duration. -/
def wholeSecs (d : Duration) : Nat := d.nanos / 1000000000

/-- The nanoseconds beyond the whole seconds. -/
def restNanos (d : Duration) : Nat := d.nanos % 1000000000

/-- A part below one, given as a count of units of which `places` decimals make a
whole, with its point and without zeros at its end. -/
private def decimals (places part : Nat) : Text :=
  let digits := Decimal.padLeft places '0' (Decimal.ofNat part)
  let kept := (digits.reverse.dropWhile (· = '0')).reverse
  if kept.isEmpty then [] else '.' :: kept

/-- A count of nanoseconds in a unit of `10 ^ places` of them. -/
private def inUnit (places nanos : Nat) (unit : String) : Text :=
  Decimal.ofNat (nanos / Nat.pow 10 places) ++ decimals places (nanos % Nat.pow 10 places) ++
    unit.toList

/-- A duration as text, such as `1.5s` or `250ms`. -/
def text (d : Duration) : Text :=
  if 1000000000 ≤ d.nanos then inUnit 9 d.nanos "s"
  else if 1000000 ≤ d.nanos then inUnit 6 d.nanos "ms"
  else if 1000 ≤ d.nanos then inUnit 3 d.nanos "µs"
  else inUnit 0 d.nanos "ns"

end Duration

end Errand
