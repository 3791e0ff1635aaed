/-
# Quoted JSON text

Between the quotes, a quote, a backslash and every control character are written as
escape sequences. A sequence may name any character by one code unit of UTF-16, or
by a pair of them. Where nobody asks for the text, half a pair passes too.
-/
import Errand.Json.Fault
import Errand.Text.Decimal
import Errand.Text.Utf8

namespace Errand.Json

/-- The value of a hexadecimal digit, in either case. -/
def hexDigit? (c : Char) : Option Nat :=
  if '0' ≤ c ∧ c ≤ '9' then some (c.toNat - '0'.toNat)
  else if 'a' ≤ c ∧ c ≤ 'f' then some (c.toNat - 'a'.toNat + 10)
  else if 'A' ≤ c ∧ c ≤ 'F' then some (c.toNat - 'A'.toNat + 10)
  else none

/-- The number that four hexadecimal digits write. -/
def fourDigits? (a b c d : Char) : Option Nat := do
  return (((← hexDigit? a) * 16 + (← hexDigit? b)) * 16 + (← hexDigit? c)) * 16 + (← hexDigit? d)

/-- The code unit of four digits at the start of a text, with what follows them. A text
of fewer than four bytes is cut short. -/
def codeUnit : Text → Except Fault (Nat × Text)
  | a :: b :: c :: d :: rest =>
    match fourDigits? a b c d with
    | some unit => .ok (unit, rest)
    | none => .error .malformed
  | text => .error (if Utf8.size text < 4 then .cutShort else .malformed)

/-- Whether a code unit is the first half of a pair. -/
def isLeading (unit : Nat) : Bool := 0xD800 ≤ unit && unit ≤ 0xDBFF

/-- Whether a code unit is the second half of a pair. -/
def isTrailing (unit : Nat) : Bool := 0xDC00 ≤ unit && unit ≤ 0xDFFF

/-- The character that a pair of code units stands for. -/
def pairChar (leading trailing : Nat) : Char :=
  Char.ofNat ((leading - 0xD800) * 0x400 + (trailing - 0xDC00) + 0x10000)

/-- The character of the code unit behind `\u`, with what follows it. The second half of
a pair must follow the first at once, and may stand nowhere else. -/
def unicodeEscape (text : Text) : Except Fault (Char × Text) := do
  let (unit, rest) ← codeUnit text
  if isTrailing unit then throw .malformed
  else if isLeading unit then
    match rest with
    | [] => throw .cutShort
    | ['\\'] => throw .cutShort
    | '\\' :: 'u' :: behind =>
      let (second, rest) ← codeUnit behind
      if isTrailing second then return (pairChar unit second, rest) else throw .malformed
    | _ => throw .malformed
  else return (Char.ofNat unit, rest)

/-- The character that a letter behind a backslash stands for. -/
def letterEscape? : Char → Option Char
  | '"' => some '"'
  | '\\' => some '\\'
  | '/' => some '/'
  | 'b' => some '\x08'
  | 'f' => some '\x0c'
  | 'n' => some '\n'
  | 'r' => some '\r'
  | 't' => some '\t'
  | _ => none

/-- The characters of the escape sequence behind a backslash, with what follows it. In a
text that nobody asks for (`strict` is false) any code unit passes. -/
def escape (strict : Bool) : Text → Except Fault (Text × Text)
  | [] => .error .cutShort
  | 'u' :: rest =>
    if strict then (unicodeEscape rest).map fun (c, behind) => ([c], behind)
    else (codeUnit rest).map fun (_, behind) => ([], behind)
  | c :: rest =>
    match letterEscape? c with
    | some meant => .ok ([meant], rest)
    | none => .error .malformed

private theorem codeUnit_shorter {text rest : Text} {unit : Nat}
    (h : codeUnit text = .ok (unit, rest)) : rest.length < text.length := by
  unfold codeUnit at h
  split at h
  · split at h
    · simp only [Except.ok.injEq, Prod.mk.injEq] at h
      rw [← h.2]; simp only [List.length_cons]; omega
    · simp at h
  · simp at h

private theorem unicodeEscape_shorter {text rest : Text} {c : Char}
    (h : unicodeEscape text = .ok (c, rest)) : rest.length < text.length := by
  unfold unicodeEscape at h
  cases first : codeUnit text with
  | error fault => simp [first, bind, Except.bind] at h
  | ok found =>
    obtain ⟨unit, behind⟩ := found
    have := codeUnit_shorter first
    simp only [first, bind, Except.bind] at h
    split at h
    · simp [throw, throwThe, MonadExceptOf.throw] at h
    · split at h
      · split at h
        · simp [throw, throwThe, MonadExceptOf.throw] at h
        · simp [throw, throwThe, MonadExceptOf.throw] at h
        · next second =>
          cases found : codeUnit second with
          | error fault => simp [found] at h
          | ok pair =>
            have shorter := codeUnit_shorter found
            simp only [found] at h
            split at h
            · simp only [pure, Except.pure, Except.ok.injEq, Prod.mk.injEq] at h
              rw [← h.2]
              simp only [List.length_cons] at this
              omega
            · simp [throw, throwThe, MonadExceptOf.throw] at h
        · simp [throw, throwThe, MonadExceptOf.throw] at h
      · simp only [pure, Except.pure, Except.ok.injEq, Prod.mk.injEq] at h
        rw [← h.2]; exact this

/-- An escape sequence takes at least one character. -/
theorem escape_shorter {strict : Bool} {text chars rest : Text}
    (h : escape strict text = .ok (chars, rest)) : rest.length < text.length := by
  unfold escape at h
  split at h
  · simp at h
  · next behind =>
    split at h
    · cases found : unicodeEscape behind with
      | error fault => simp [found, Except.map] at h
      | ok pair =>
        have := unicodeEscape_shorter found
        simp only [found, Except.map, Except.ok.injEq, Prod.mk.injEq] at h
        rw [← h.2]; simp only [List.length_cons]; omega
    · cases found : codeUnit behind with
      | error fault => simp [found, Except.map] at h
      | ok pair =>
        have := codeUnit_shorter found
        simp only [found, Except.map, Except.ok.injEq, Prod.mk.injEq] at h
        rw [← h.2]; simp only [List.length_cons]; omega
  · split at h
    · simp only [Except.ok.injEq, Prod.mk.injEq] at h
      rw [← h.2]; simp
    · simp at h

/-- The text up to the closing quote, with what follows that quote. -/
def characters (strict : Bool) (text : Text) : Except Fault (Text × Text) :=
  match text with
  | [] => .error .cutShort
  | c :: rest =>
    if c = '"' then .ok ([], rest)
    else if c = '\\' then
      match _found : escape strict rest with
      | .error fault => .error fault
      | .ok (chars, behind) =>
        (characters strict behind).map fun (text, after) => (chars ++ text, after)
    else if c < ' ' then .error .malformed
    else (characters strict rest).map fun (text, after) => (c :: text, after)
termination_by text.length
decreasing_by
  all_goals simp only [List.length_cons]
  all_goals first
    | omega
    | (have shorter := escape_shorter _found; omega)

/-- A character between quotes. -/
def quotedChar (c : Char) : Text :=
  if c = '"' then ['\\', '"']
  else if c = '\\' then ['\\', '\\']
  else if c = '\x08' then ['\\', 'b']
  else if c = '\x0c' then ['\\', 'f']
  else if c = '\n' then ['\\', 'n']
  else if c = '\r' then ['\\', 'r']
  else if c = '\t' then ['\\', 't']
  else if c < ' ' then ['\\', 'u'] ++ Decimal.hex 4 c.toNat
  else [c]

/-- A text between quotes. -/
def quoted (text : Text) : Text := ['"'] ++ text.flatMap quotedChar ++ ['"']

end Errand.Json
