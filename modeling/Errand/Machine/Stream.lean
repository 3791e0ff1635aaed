/-
# Byte streams in time

What a process writes is a list of writes, each at a moment counted in nanoseconds
from the start, and a word on how the stream goes on: it closes, or it repeats the
same bytes for as long as somebody reads, or nothing more ever comes.
-/
import Errand.Local.Process

namespace Errand.Machine

/-- A run of bytes. -/
abbrev Bytes := List UInt8

/-- A moment, in nanoseconds from the start. -/
abbrev Moment := Nat

/-- How a stream goes on after its writes. -/
inductive Ending where
  | closes (moment : Moment)
  /-- The bytes come again and again. -/
  | repeats (bytes : Bytes)
  | silence
  deriving DecidableEq, Repr

/-- What can be read over time. -/
structure Stream where
  writes : List (Moment × Bytes)
  ending : Ending
  deriving DecidableEq, Repr

namespace Stream

/-- Nothing, closed from the start. -/
def empty : Stream := ⟨[], .closes 0⟩

/-- Some bytes that are there from the start. -/
def ofBytes (bytes : Bytes) : Stream := ⟨[(0, bytes)], .closes 0⟩

/-- All bytes of the writes. -/
def written (stream : Stream) : Bytes := stream.writes.flatMap (·.2)

/-- The bytes written up to a moment. -/
def writtenBy (stream : Stream) (limit : Option Moment) : Bytes :=
  (stream.writes.filter fun (moment, _) => limit.all (moment ≤ ·)).flatMap (·.2)

/-- All that the stream ever holds and when it closes, if it does. -/
def whole? (stream : Stream) : Option (Bytes × Moment) :=
  match stream.ending with
  | .closes moment => some (stream.written, moment)
  | .repeats _ => none
  | .silence => none

/-- When a repeated run of bytes, taken `count` times, is all that is asked for: the
stream cut down to that many repetitions. -/
def cutAfter (stream : Stream) (count : Nat) : Stream :=
  match stream.ending with
  | .repeats bytes => ⟨stream.writes ++ [(0, (List.replicate count bytes).flatten)], .closes 0⟩
  | .closes moment => ⟨stream.writes, .closes moment⟩
  | .silence => ⟨stream.writes, .silence⟩

/-- One stream behind another, which it follows at once. -/
def append (first second : Stream) : Stream :=
  match first.ending with
  | .closes moment =>
    ⟨first.writes ++ second.writes.map fun (later, bytes) => (max moment later, bytes),
      match second.ending with
      | .closes later => .closes (max moment later)
      | .repeats bytes => .repeats bytes
      | .silence => .silence⟩
  | .repeats _ => first
  | .silence => first

/-- The stream, a while later. -/
def shift (delay : Moment) (stream : Stream) : Stream where
  writes := stream.writes.map fun (moment, bytes) => (moment + delay, bytes)
  ending := match stream.ending with
    | .closes moment => .closes (moment + delay)
    | .repeats bytes => .repeats bytes
    | .silence => .silence

end Stream

/-- What a process does once it is started: what it writes, how it ends, and when, if
it ever does. -/
structure Outcome where
  stdout : Stream
  stderr : Stream
  status : Local.Status
  endsAt : Option Moment
  deriving DecidableEq, Repr

namespace Outcome

/-- A process that writes all it has to write at one moment and ends. -/
def finished (moment : Moment) (stdout stderr : Bytes) (code : Int) : Outcome where
  stdout := ⟨[(moment, stdout)], .closes moment⟩
  stderr := ⟨[(moment, stderr)], .closes moment⟩
  status := .exited code
  endsAt := some moment

/-- A process that reads without end and never writes. -/
def stuck : Outcome := ⟨⟨[], .silence⟩, ⟨[], .silence⟩, .exited 0, none⟩

/-- A process that ends at once with some output. -/
def prints (text : Text) : Outcome := finished 0 (Utf8.encode text) [] 0

/-- A process that ends at once with a complaint. -/
def complains (text : Text) (code : Int) : Outcome := finished 0 [] (Utf8.encode text) code

/-- A process that reads all of its input before it answers. -/
def afterReading (stdin : Stream) (answer : Bytes → Bytes × Int) : Outcome :=
  match stdin.whole? with
  | none => stuck
  | some (bytes, moment) =>
    let (stdout, code) := answer bytes
    finished moment stdout [] code

/-- The same process, started a while later. -/
def delayed (delay : Moment) (outcome : Outcome) : Outcome where
  stdout := outcome.stdout.shift delay
  stderr := outcome.stderr.shift delay
  status := outcome.status
  endsAt := outcome.endsAt.map (· + delay)

end Outcome

end Errand.Machine
