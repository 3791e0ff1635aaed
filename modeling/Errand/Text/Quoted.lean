/-
# Quoted text in messages

Messages and log lines show a text between double quotes. A backslash stands before
a quote and before a backslash, the usual letters stand for newline, carriage return,
tab and NUL, and any other character that would not show is written as its code
point. Bytes that belong to no character are written one by one in hexadecimal.
-/
import Errand.Text.Decimal
import Errand.Text.Printable
import Errand.Text.Utf8

namespace Errand.Quoted

/-- A character as it is written between quotes. -/
def char (c : Char) : Text :=
  if c = '\x00' then ['\\', '0']
  else if c = '\t' then ['\\', 't']
  else if c = '\r' then ['\\', 'r']
  else if c = '\n' then ['\\', 'n']
  else if c = '"' || c = '\\' then ['\\', c]
  else if Text.isPrintable c then [c]
  else ['\\', 'u', '\x7b'] ++ Decimal.hex 1 c.toNat ++ ['\x7d']

/-- A byte that belongs to no character, as it is written between quotes. -/
def byte (b : UInt8) : Text :=
  ['\\', 'x'] ++ (Decimal.hex 2 b.toNat).map Char.toUpper

/-- A piece of a byte string, as it is written between quotes. -/
def piece : Utf8.Piece → Text
  | .char c => char c
  | .stray b => byte b

/-- A text between quotes. -/
def text (t : Text) : Text := ['"'] ++ t.flatMap char ++ ['"']

/-- A byte string between quotes. -/
def bytes (bs : List UInt8) : Text := ['"'] ++ (Utf8.pieces bs).flatMap piece ++ ['"']

/-- A list of texts between brackets. -/
def texts (ts : List Text) : Text :=
  ['['] ++ Text.join [',', ' '] (ts.map text) ++ [']']

/-- A value that may be missing, written by `inner` where it is not. -/
def option {α : Type} (inner : α → Text) : Option α → Text
  | none => "None".toList
  | some value => "Some(".toList ++ inner value ++ [')']

end Errand.Quoted
