/-
# Directives of a log filter

A directive sets the threshold for the records of a target, written `target=level`.
Either side can be left out: a level alone holds for every target, a target alone lets
everything pass. Brackets may narrow it, `target[span]=level` to what runs inside a span
and `target[{field}]=level` to the records that have a field. Nothing here runs
inside a span, so a directive for spans is read, must be well formed, and never applies;
asking for the value of a field makes it one too.

The reading walks over the characters of a part and notes the places where words begin.
It walks over the part without the blanks around it but cuts the words from the part as
it stands, so blanks in front move every word: a level behind them is never one, and a
target begins with them.
-/
import Errand.Log.Record
import Errand.Log.Pattern
import Errand.Text.Decimal

namespace Errand.Log

/-- The records up to a level, or none at all. -/
inductive Threshold where
  | off
  | upTo (level : Level)
  deriving DecidableEq, Repr

/-- Whether a level passes a threshold. -/
def Threshold.admits : Threshold → Level → Bool
  | .off, _ => false
  | .upTo limit, level => level.rank ≤ limit.rank

namespace Threshold

/-- The threshold that a number stands for. -/
def ofNat? : Nat → Option Threshold
  | 0 => some .off
  | 1 => some (.upTo .error)
  | 2 => some (.upTo .warn)
  | 3 => some (.upTo .info)
  | 4 => some (.upTo .debug)
  | 5 => some (.upTo .trace)
  | _ => none

/-- The thresholds that have names. -/
def named : List (String × Threshold) :=
  [("error", .upTo .error), ("warn", .upTo .warn), ("info", .upTo .info),
   ("debug", .upTo .debug), ("trace", .upTo .trace), ("off", .off)]

/-- The threshold that a text names or numbers. -/
def read? (text : Text) : Option Threshold :=
  match (Decimal.unsigned? UInt64.size text).bind ofNat? with
  | some threshold => some threshold
  | none => (named.find? fun (name, _) => Text.agreesFolded name.toList text).map (·.2)

end Threshold

/-- A threshold for the records of one target, all of them or those that have a field.
The empty target begins every other. -/
structure Directive where
  target : Text
  field : Option Text
  threshold : Threshold
  deriving DecidableEq, Repr

namespace Directive

/-! ## Which records it is for -/

/-- Whether a record has a field of this name. The message counts as one. -/
def names (field : Text) (record : Record) : Bool :=
  field = "message".toList || record.fields.any fun known => known.name.toList = field

/-- Whether a directive is for a record. -/
def applies (directive : Directive) (record : Record) : Bool :=
  directive.target.isPrefixOf record.source.target.toList &&
    directive.field.all (names · record)

/-- The order of texts by their first different character. -/
def precedes (left right : Text) : Bool :=
  left.lex right fun a b => a.toNat < b.toNat

/-- Whether `later` decides where both directives apply. The longer target does; of two
equal ones a directive for a field, the last field in order, and the later directive. -/
def yieldsTo (earlier later : Directive) : Bool :=
  if earlier.target.length = later.target.length then
    match earlier.field, later.field with
    | none, _ => true
    | some _, none => false
    | some field, some other => !precedes other field
  else earlier.target.length < later.target.length

/-! ## The value of a field -/

/-- Whether a text is a run of digits and nothing else. -/
private def areDigits (text : Text) : Bool := !text.isEmpty && text.all Char.isDigit

/-- Whether a text can stand behind the digits of a number: nothing, or an exponent. -/
private def isExponent : Text → Bool
  | [] => true
  | letter :: sign :: digits =>
    (letter = 'e' || letter = 'E') &&
      (if sign = '+' || sign = '-' then areDigits digits else areDigits (sign :: digits))
  | _ => false

/-- Whether a text is a number without a sign. -/
private def isMagnitude (text : Text) : Bool :=
  let whole := text.takeWhile Char.isDigit
  let behind := text.drop whole.length
  match behind with
  | '.' :: more =>
    let fraction := more.takeWhile Char.isDigit
    !(whole.isEmpty && fraction.isEmpty) && isExponent (more.drop fraction.length)
  | _ =>
    if whole.isEmpty then
      ["inf", "infinity", "nan"].any fun name => Text.agreesFolded name.toList text
    else isExponent behind

/-- Whether a field can be asked for this value: a number or a pattern. Only a number with
a plus sign is not a pattern as well. -/
def isValue : Text → Bool
  | '+' :: magnitude => isMagnitude magnitude
  | text => Pattern.isWellFormed text

/-! ## Reading -/

/-- What a part of a filter says: a directive for records, or one for spans. -/
inductive Reading where
  | records (directive : Directive)
  | spans
  deriving DecidableEq, Repr

/-- Where the reading of a part stands. A number is the place where a word began. -/
inductive Place where
  | start
  | word (start : Nat)
  | span (start : Nat)
  | field (start : Nat)
  /-- Behind the brace that closes a field. -/
  | fieldEnd
  /-- Behind the bracket that closes the narrowing. -/
  | closed
  | level (start : Nat)
  deriving DecidableEq, Repr

/-- What has been read of a part. `forSpans` is true once a span or the value of a field
was asked for. -/
structure Draft where
  place : Place
  target : Text
  field : Option Text
  forSpans : Bool
  deriving DecidableEq, Repr

/-- Whether a directive may begin with this character. -/
def isStart (c : Char) : Bool :=
  c = '-' || c = ':' || c = '_' || Text.isAlphanumeric c

namespace Draft

/-- A draft before the first character. -/
def blank : Draft := ⟨.start, [], none, false⟩

/-- The draft with what a field's braces hold: a name, and perhaps a value behind an
equals sign. What stands behind a second one is not looked at. -/
def withField? (draft : Draft) (text : Text) : Option Draft :=
  match text.cutAll '=' with
  | [name] => some { draft with place := .fieldEnd, field := some name }
  | name :: value :: _ =>
    if isValue value then
      some { draft with place := .fieldEnd, field := some name, forSpans := true }
    else none
  | [] => none

/-- The draft after the character `mark`, which stands at `place` of the part without
its blanks. Words are cut from `part`. -/
def step? (part : Text) (draft : Draft) (mark : Char × Nat) : Option Draft :=
  let (c, here) := mark
  let wordFrom (start : Nat) : Text := (part.take here).drop start
  match draft.place with
  | .start =>
    if c = '[' then some { draft with place := .span (here + 1) }
    else if isStart c then some { draft with place := .word here }
    else none
  | .word start =>
    if c = '=' then some { draft with place := .level (here + 1), target := wordFrom start }
    else if c = '[' then some { draft with place := .span (here + 1), target := wordFrom start }
    else some draft
  | .span start =>
    if c = ']' then some { draft with place := .closed, forSpans := true }
    else if c = '\x7b' then
      some { draft with place := .field (here + 1), forSpans := start < here }
    else some draft
  | .field start =>
    if c = '\x7d' then if start < here then draft.withField? (wordFrom start) else none
    else some draft
  | .fieldEnd => if c = ']' then some { draft with place := .closed } else none
  | .closed => if c = '=' then some { draft with place := .level (here + 1) } else none
  | .level _ => some draft

/-- What a draft says that has come to its threshold. -/
def toReading (draft : Draft) (threshold : Threshold) : Reading :=
  if draft.forSpans then .spans else .records ⟨draft.target, draft.field, threshold⟩

/-- What a draft says at the end of its part, if the part may end there. The last word
goes on to the end of the part with its blanks. -/
def finish? (part : Text) (draft : Draft) : Option Reading :=
  match draft.place with
  | .word start =>
    let word := part.drop start
    match Threshold.read? word with
    | some threshold => some (.records ⟨[], none, threshold⟩)
    | none => some (.records ⟨word, none, .upTo .trace⟩)
  | .level start =>
    match part.drop start with
    | [] => some (draft.toReading (.upTo .trace))
    | level => (Threshold.read? level).map draft.toReading
  | .closed => some (draft.toReading (.upTo .trace))
  | _ => none

end Draft

/-- What one part of a filter says, if it says anything. -/
def read? (part : Text) : Option Reading := do
  let draft ← part.trim.zipIdx.foldlM (Draft.step? part) Draft.blank
  draft.finish? part

end Directive

end Errand.Log
