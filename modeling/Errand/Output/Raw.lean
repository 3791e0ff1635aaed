/-
# Raw output and its normal form

A command's output is captured as bytes, as text, as nothing at all, or in chunks of
one kind. Its normal form is one trimmed text. Byte chunks are joined before they
are decoded, so a character cut between two chunks survives.
-/
import Errand.Text.Utf8

namespace Errand.Output

/-- The kinds of raw output. -/
inductive Kind where
  | absent
  | bytes
  | text
  | chunks
  deriving DecidableEq, Repr

/-- How a kind is called in messages. -/
def Kind.name : Kind → String
  | .absent => "an absent value"
  | .bytes => "bytes"
  | .text => "text"
  | .chunks => "a nested collection"

/-- Output before it is normalized. -/
inductive Raw where
  | absent
  | bytes (bytes : List UInt8)
  | text (text : Text)
  | chunks (chunks : List Raw)
  deriving Inhabited

/-- The kind of an output. -/
def Raw.kind : Raw → Kind
  | .absent => .absent
  | .bytes _ => .bytes
  | .text _ => .text
  | .chunks _ => .chunks

/-- Why a collection of chunks has no normal form. -/
inductive TypeFault where
  /-- The chunk at `index` is not of the kind of the first one. -/
  | mismatch (index : Nat) (found expected : Kind)
  /-- The first chunk is neither bytes nor text. -/
  | badStart (kind : Kind)
  deriving DecidableEq, Repr

/-- The wording of a type fault. -/
def TypeFault.message : TypeFault → String
  | .mismatch index found expected =>
    "element " ++ toString index ++ " is " ++ found.name ++ ", expected " ++ expected.name
  | .badStart kind => "cannot normalize a collection starting with " ++ kind.name

/-- The bytes of chunks that are all bytes, joined. `index` is the place of the first
of them. -/
def joinBytes (index : Nat) : List Raw → Except TypeFault (List UInt8)
  | [] => .ok []
  | .bytes bytes :: chunks => (joinBytes (index + 1) chunks).map (bytes ++ ·)
  | other :: _ => .error (.mismatch index other.kind .bytes)

/-- The text of chunks that are all text, joined. `index` is the place of the first of
them. -/
def joinText (index : Nat) : List Raw → Except TypeFault Text
  | [] => .ok []
  | .text text :: chunks => (joinText (index + 1) chunks).map (text ++ ·)
  | other :: _ => .error (.mismatch index other.kind .text)

/-- One trimmed text for a raw output. Bytes that belong to no character are left
out. -/
def normalize : Raw → Except TypeFault Text
  | .absent => .ok []
  | .bytes bytes => .ok (Utf8.decode bytes).trim
  | .text text => .ok text.trim
  | .chunks [] => .ok []
  | .chunks (.bytes first :: rest) =>
    (joinBytes 0 (.bytes first :: rest)).map fun bytes => (Utf8.decode bytes).trim
  | .chunks (.text first :: rest) => (joinText 0 (.text first :: rest)).map Text.trim
  | .chunks (other :: _) => .error (.badStart other.kind)

/-- One trimmed text for captured bytes. -/
def settle (bytes : List UInt8) : Text := (Utf8.decode bytes).trim

end Errand.Output
