/-
# Stripping terminal control sequences

A remote pseudo-terminal mixes control sequences into what a command prints. They
are recognized by the state machine that terminals agree on: text in the ground
state, and escape, control (CSI), device control (DCS) and operating system command
(OSC) sequences outside it. Only printable text, newlines and tabs come through.
Newlines and tabs count even in the middle of an escape or control sequence, where
a terminal acts on them at once.

The ground state reads UTF-8 with the same machine as plain decoding, one byte at a time.
A terminal reads it in a loop that restarts behind each error; the two find the same text.
-/
import Errand.Text.Utf8

namespace Errand.Output.Terminal

/-- Where the recognizer stands between two bytes. -/
inductive State where
  /-- In text, perhaps inside a character. -/
  | ground (unfinished : Utf8.State)
  /-- Behind an ESC. -/
  | escape
  | escapeIntermediate
  | csiEntry
  | csiParam
  | csiIntermediate
  | csiIgnore
  | dcsEntry
  | dcsParam
  | dcsIntermediate
  | dcsPassthrough
  | dcsIgnore
  | oscString
  /-- In a start-of-string, privacy or application string. -/
  | otherString
  deriving DecidableEq, Repr

/-- Text with no character begun. -/
def State.start : State := .ground none

/-- What of a control byte comes through. -/
def control (byte : UInt8) : Text :=
  if byte = 0x0A then ['\n'] else if byte = 0x09 then ['\t'] else []

/-- What of a character in the ground state comes through: it is dropped if it is a
control character other than newline and tab, or the replacement character. -/
def printable (c : Char) : Text :=
  if c = '\n' || c = '\t' then [c]
  else if c.toNat < 0x20 || (0x80 ≤ c.toNat && c.toNat < 0xA0) || c = '\uFFFD' then []
  else [c]

/-- What of a piece of the ground state comes through. -/
def shown : Utf8.Piece → Text
  | .char c => printable c
  | .stray _ => []

/-- Whether a byte is a control byte that a terminal acts on inside a sequence. -/
def isExecutable (byte : UInt8) : Bool :=
  byte < 0x18 || byte = 0x19 || (0x1C ≤ byte && byte < 0x20)

/-- Whether a byte lies between two others, ends included. -/
def within (low byte high : UInt8) : Bool := low ≤ byte && byte ≤ high

/-- The rules that hold in every state outside text: CAN and SUB return to it and ESC
begins a new sequence. -/
def anywhere (state : State) (byte : UInt8) : State :=
  if byte = 0x18 || byte = 0x1A then .start
  else if byte = 0x1B then .escape
  else state

/-- The state behind a byte that follows ESC, where it is not a control byte. -/
def escaped (byte : UInt8) : State :=
  if within 0x20 byte 0x2F then .escapeIntermediate
  else if byte = 0x50 then .dcsEntry
  else if byte = 0x5B then .csiEntry
  else if byte = 0x5D then .oscString
  else if byte = 0x58 || byte = 0x5E || byte = 0x5F then .otherString
  else if within 0x30 byte 0x7E then .start
  else anywhere .escape byte

/-- The state behind a byte of a control sequence that is not a control byte. -/
def csi (state : State) (byte : UInt8) : State :=
  if within 0x40 byte 0x7E then .start
  else if state = .csiIgnore then anywhere state byte
  else if within 0x20 byte 0x2F then .csiIntermediate
  else if within 0x30 byte 0x3F then
    if state = .csiIntermediate then .csiIgnore
    else if state = .csiParam && 0x3C ≤ byte then .csiIgnore
    else .csiParam
  else anywhere state byte

/-- The state behind a byte of a device control sequence before its data. -/
def dcs (state : State) (byte : UInt8) : State :=
  if within 0x40 byte 0x7E then .dcsPassthrough
  else if within 0x20 byte 0x2F then .dcsIntermediate
  else if within 0x30 byte 0x3F then
    if state = .dcsIntermediate then .dcsIgnore
    else if state = .dcsParam && 0x3C ≤ byte then .dcsIgnore
    else .dcsParam
  else anywhere state byte

/-- A byte inside a control sequence, where control bytes are acted on at once. -/
def inControl (state : State) (byte : UInt8) : State × Text :=
  if isExecutable byte then (state, control byte) else (csi state byte, [])

/-- The state after one byte and the text that the byte lets through. -/
def step : State → UInt8 → State × Text
  | .ground unfinished, byte =>
    let (next, pieces) := Utf8.step unfinished byte
    let text := pieces.flatMap shown
    if byte = 0x1B then (.escape, text) else (.ground next, text)
  | .escape, byte =>
    if isExecutable byte then (.escape, control byte) else (escaped byte, [])
  | .escapeIntermediate, byte =>
    if isExecutable byte then (.escapeIntermediate, control byte)
    else if within 0x30 byte 0x7E then (.start, [])
    else (anywhere .escapeIntermediate byte, [])
  | .oscString, byte =>
    if byte = 0x07 then (.start, []) else (anywhere .oscString byte, [])
  | .dcsPassthrough, byte =>
    if byte = 0x9C then (.start, []) else (anywhere .dcsPassthrough byte, [])
  | .dcsIgnore, byte => (anywhere .dcsIgnore byte, [])
  | .otherString, byte => (anywhere .otherString byte, [])
  | .csiEntry, byte => inControl .csiEntry byte
  | .csiParam, byte => inControl .csiParam byte
  | .csiIntermediate, byte => inControl .csiIntermediate byte
  | .csiIgnore, byte => inControl .csiIgnore byte
  | .dcsEntry, byte => (dcs .dcsEntry byte, [])
  | .dcsParam, byte => (dcs .dcsParam byte, [])
  | .dcsIntermediate, byte => (dcs .dcsIntermediate byte, [])

/-- The text that the bytes still to read let through, behind `reversed`, which is
held last character first. -/
def plainFrom (reversed : Text) : State → List UInt8 → Text
  | _, [] => reversed.reverse
  | state, byte :: rest =>
    let (next, text) := step state byte
    plainFrom (text.reverse ++ reversed) next rest

/-- The text of terminal output without its control sequences. -/
def plainText (bytes : List UInt8) : Text := plainFrom [] .start bytes

/-- The bytes of terminal output without its control sequences. -/
def strip (bytes : List UInt8) : List UInt8 := Utf8.encode (plainText bytes)

/-- What is read behind `reversed` is what is read on its own, after `reversed`. -/
theorem plainFrom_eq (reversed : Text) (state : State) (bytes : List UInt8) :
    plainFrom reversed state bytes = reversed.reverse ++ plainFrom [] state bytes := by
  induction bytes generalizing reversed state with
  | nil => simp [plainFrom]
  | cons byte rest ih =>
    simp only [plainFrom]
    rw [ih, ih ((step state byte).2.reverse ++ [])]
    simp

/-- One byte at a time: what the first byte lets through comes first. -/
theorem plainFrom_cons (state : State) (byte : UInt8) (rest : List UInt8) :
    plainFrom [] state (byte :: rest) =
      (step state byte).2 ++ plainFrom [] (step state byte).1 rest := by
  simp only [plainFrom, List.append_nil]
  rw [plainFrom_eq, List.reverse_reverse]

end Errand.Output.Terminal
