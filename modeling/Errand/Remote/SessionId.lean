/-
# Session identifiers

Sessions are numbered in the order in which they are made, in sixty-four bits.
-/
import Errand.Text.Decimal

namespace Errand.Remote

/-- The number of a session. -/
structure SessionId where
  value : UInt64
  deriving DecidableEq, Repr

namespace SessionId

/-- The number of the first session. -/
def first : SessionId := ⟨1⟩

/-- The number after this one. -/
def next (id : SessionId) : SessionId := ⟨id.value + 1⟩

/-- An identifier as it is shown: `ssh-` and at least eight hexadecimal digits. -/
def text (id : SessionId) : Text := "ssh-".toList ++ Decimal.hex 8 id.value.toNat

/-- So many identifiers, made one after another from `id` on. -/
def series : Nat → SessionId → List SessionId
  | 0, _ => []
  | count + 1, id => id :: series count id.next

end SessionId

end Errand.Remote
