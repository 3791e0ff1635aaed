/-
# UTF-8, one byte at a time

Bytes are read by a machine that holds the bytes of an unfinished character and
the range that the next byte may come from. A byte outside that range gives up
the unfinished character and is then read as the first byte of a new one. The
result loses nothing: every byte is part of a character or is reported stray, and
the lenient, strict and replacing decoders only differ in what they do with the
stray bytes.
-/
import Errand.Text

namespace Errand.Utf8

/-- What a run of bytes spells: a character, or a byte that belongs to none. -/
inductive Piece where
  | char (c : Char)
  | stray (byte : UInt8)
  deriving DecidableEq, Repr

/-- A character that has begun: its bytes so far, the number of bytes still owed,
the value of the bits met so far, and the least and greatest next byte. -/
structure Unfinished where
  bytes : List UInt8
  owed : Nat
  value : Nat
  low : UInt8
  high : UInt8
  deriving DecidableEq, Repr

/-- Where the machine stands between two bytes. -/
abbrev State := Option Unfinished

/-- A byte read where a character may begin. The ranges of second bytes keep out
overlong forms, surrogates and values beyond the last code point. -/
def begin (byte : UInt8) : State × List Piece :=
  let opened (owed value : Nat) (low high : UInt8) : State × List Piece :=
    (some ⟨[byte], owed, value, low, high⟩, [])
  if byte ≤ 0x7F then (none, [.char (Char.ofNat byte.toNat)])
  else if byte < 0xC2 then (none, [.stray byte])
  else if byte ≤ 0xDF then opened 1 (byte.toNat - 0xC0) 0x80 0xBF
  else if byte = 0xE0 then opened 2 0 0xA0 0xBF
  else if byte = 0xED then opened 2 13 0x80 0x9F
  else if byte ≤ 0xEF then opened 2 (byte.toNat - 0xE0) 0x80 0xBF
  else if byte = 0xF0 then opened 3 0 0x90 0xBF
  else if byte ≤ 0xF3 then opened 3 (byte.toNat - 0xF0) 0x80 0xBF
  else if byte = 0xF4 then opened 3 4 0x80 0x8F
  else (none, [.stray byte])

/-- A byte read where a character has begun. -/
def Unfinished.step (unfinished : Unfinished) (byte : UInt8) : State × List Piece :=
  if unfinished.low ≤ byte ∧ byte ≤ unfinished.high then
    let value := unfinished.value * 64 + (byte.toNat - 0x80)
    if unfinished.owed ≤ 1 then (none, [.char (Char.ofNat value)])
    else (some ⟨unfinished.bytes ++ [byte], unfinished.owed - 1, value, 0x80, 0xBF⟩, [])
  else
    let (state, pieces) := begin byte
    (state, unfinished.bytes.map .stray ++ pieces)

/-- The state after one byte and what that byte settles. -/
def step : State → UInt8 → State × List Piece
  | none, byte => begin byte
  | some unfinished, byte => unfinished.step byte

/-- The bytes of a character that never ended are stray. -/
def State.flush : State → List Piece
  | none => []
  | some unfinished => unfinished.bytes.map .stray

/-- The pieces of the bytes still to read, behind those of `reversed`, which are
held last piece first. -/
def piecesFrom (reversed : List Piece) : State → List UInt8 → List Piece
  | state, [] => (state.flush.reverse ++ reversed).reverse
  | state, byte :: rest =>
    let (next, settled) := step state byte
    piecesFrom (settled.reverse ++ reversed) next rest

/-- The characters and stray bytes that the bytes spell, in order. -/
def pieces (bytes : List UInt8) : List Piece := piecesFrom [] none bytes

/-- The character of a piece, if it is one. -/
def Piece.char? : Piece → Option Char
  | .char c => some c
  | .stray _ => none

/-- The text of the bytes, without those that belong to no character. -/
def decode (bytes : List UInt8) : Text := (pieces bytes).filterMap Piece.char?

/-- The text of the bytes, if every byte belongs to a character. -/
def decode? (bytes : List UInt8) : Option Text :=
  let found := pieces bytes
  let text := found.filterMap Piece.char?
  if text.length = found.length then some text else none

/-- What stands for bytes that belong to no character. -/
def replacement : Char := '\ufffd'

/-- The character of a piece, or its replacement. -/
def Piece.charOrReplacement (piece : Piece) : Char := piece.char?.getD replacement

/-- The characters that one step settles. A character that is given up unfinished gets one
replacement, however many bytes it had. -/
def replaceSettled (state : State) (settled : List Piece) : Text :=
  match state, settled with
  | some unfinished, .stray _ :: _ =>
    replacement :: (settled.drop unfinished.bytes.length).map Piece.charOrReplacement
  | _, _ => settled.map Piece.charOrReplacement

/-- The text of the bytes still to read, with replacements for what belongs to no
character. -/
def replaceFrom : State → List UInt8 → Text
  | none, [] => []
  | some _, [] => [replacement]
  | state, byte :: rest =>
    let (next, settled) := step state byte
    replaceSettled state settled ++ replaceFrom next rest

/-- The text of the bytes, with replacements for what belongs to no character. -/
def replace (bytes : List UInt8) : Text := replaceFrom none bytes

/-- The bytes of a piece. -/
def Piece.bytes : Piece → List UInt8
  | .char c => String.utf8EncodeChar c
  | .stray byte => [byte]

/-- The bytes of a text. -/
def encode (text : Text) : List UInt8 := text.flatMap String.utf8EncodeChar

/-- The number of bytes that a text takes. -/
def size (text : Text) : Nat := text.foldr (fun c taken => c.utf8Size + taken) 0

/-- What is read behind `reversed` is what is read on its own, after `reversed`. -/
theorem piecesFrom_eq (reversed : List Piece) (state : State) (bytes : List UInt8) :
    piecesFrom reversed state bytes = reversed.reverse ++ piecesFrom [] state bytes := by
  induction bytes generalizing reversed state with
  | nil => simp [piecesFrom]
  | cons byte rest ih =>
    simp only [piecesFrom]
    rw [ih, ih ((step state byte).2.reverse ++ [])]
    simp

/-- One byte at a time: what the first byte settles comes first. -/
theorem piecesFrom_cons (state : State) (byte : UInt8) (rest : List UInt8) :
    piecesFrom [] state (byte :: rest) =
      (step state byte).2 ++ piecesFrom [] (step state byte).1 rest := by
  simp only [piecesFrom, List.append_nil]
  rw [piecesFrom_eq, List.reverse_reverse]

end Errand.Utf8
