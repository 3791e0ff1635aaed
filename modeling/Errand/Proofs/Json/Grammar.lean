/-
# Written JSON

What counts as JSON is stated here apart from every reader: which characters may stand between the
parts of a text, how a text is spelled between quotes, what a numeral is, and how objects and lists
are put together. Between quotes there are two questions. A text that is asked for has to spell
characters, so half a pair of code units is no part of it. A text that nobody asks for only has to
be of the right form.

An object is taken apart into its members, each with its name as it is meant and its value as it is
written. So one description serves for the objects that are read and for those that are skipped.
-/
import Errand.Text.Decimal

namespace Errand.Json

/-! ## Gaps -/

/-- Space, newline, tab and carriage return in any number, between two parts of a text. -/
def IsGapText (text : Text) : Prop := ∀ c ∈ text, c ∈ [' ', '\n', '\t', '\r']

/-! ## Texts between quotes -/

/-- Characters that stand for themselves between quotes. -/
def IsUnescaped (c : Char) : Prop := ' ' ≤ c ∧ c ≠ '"' ∧ c ≠ '\\'

instance : DecidablePred IsUnescaped := fun _ => inferInstanceAs (Decidable (_ ∧ _ ∧ _))

/-- The letters that may stand behind a backslash, with the characters that they mean. -/
def shortEscapes : List (Char × Char) :=
  [('"', '"'), ('\\', '\\'), ('/', '/'), ('b', '\x08'), ('f', '\x0c'), ('n', '\n'), ('r', '\r'),
    ('t', '\t')]

/-- The hexadecimal digits in either case, with their values. -/
def hexDigits : List (Char × Nat) :=
  "0123456789abcdef".toList.zipIdx ++ "ABCDEF".toList.zipIdx 10

/-- Four hexadecimal digits and the code unit that they write. -/
inductive IsUnit : Text → Nat → Prop
  | digits {a b c d : Char} {i j k l : Nat} (first : (a, i) ∈ hexDigits)
    (second : (b, j) ∈ hexDigits) (third : (c, k) ∈ hexDigits) (fourth : (d, l) ∈ hexDigits) :
    IsUnit [a, b, c, d] (((i * 16 + j) * 16 + k) * 16 + l)

/-- One character as it may be written between quotes. -/
inductive SpellsChar : Text → Char → Prop
  | plain {c : Char} (unescaped : IsUnescaped c) : SpellsChar [c] c
  | short {letter c : Char} (known : (letter, c) ∈ shortEscapes) : SpellsChar ['\\', letter] c
  | unit {digits : Text} {c : Char} (written : IsUnit digits c.toNat) :
    SpellsChar ('\\' :: 'u' :: digits) c
  /-- A character that does not fit one code unit takes two. -/
  | pair {leading trailing : Text} {c : Char} (beyond : 0x10000 ≤ c.toNat)
    (high : IsUnit leading (0xD800 + (c.toNat - 0x10000) / 0x400))
    (low : IsUnit trailing (0xDC00 + (c.toNat - 0x10000) % 0x400)) :
    SpellsChar ('\\' :: 'u' :: leading ++ '\\' :: 'u' :: trailing) c

/-- A text as it may be written between quotes. -/
inductive Spells : (written text : Text) → Prop
  | nil : Spells [] []
  | cons {spelling written text : Text} {c : Char} (first : SpellsChar spelling c)
    (rest : Spells written text) : Spells (spelling ++ written) (c :: text)

/-- What may stand between quotes where nobody asks which text it is. -/
inductive IsBody : Text → Prop
  | nil : IsBody []
  | plain {c : Char} {rest : Text} (unescaped : IsUnescaped c) (more : IsBody rest) :
    IsBody (c :: rest)
  | short {letter c : Char} {rest : Text} (known : (letter, c) ∈ shortEscapes)
    (more : IsBody rest) : IsBody ('\\' :: letter :: rest)
  | unit {digits rest : Text} {value : Nat} (written : IsUnit digits value) (more : IsBody rest) :
    IsBody ('\\' :: 'u' :: digits ++ rest)

/-- A text between quotes, with the quotes. -/
inductive Quotes : (text written : Text) → Prop
  | quoted {text body : Text} (spells : Spells body text) : Quotes text ('"' :: body ++ ['"'])

/-! ## Numerals -/

/-- At least one digit and nothing else. -/
def IsDigits (text : Text) : Prop := text ≠ [] ∧ ∀ c ∈ text, c.isDigit

/-- A whole part. No zero stands in front of other digits. -/
inductive IsWhole : Text → Prop
  | zero : IsWhole ['0']
  | digits {text : Text} (digits : IsDigits text) (proper : text.head? ≠ some '0') : IsWhole text

/-- Decimals, or none. -/
inductive IsDecimals : Text → Prop
  | absent : IsDecimals []
  | present {text : Text} (digits : IsDigits text) : IsDecimals ('.' :: text)

/-- An exponent, or none. -/
inductive IsExponent : Text → Prop
  | absent : IsExponent []
  | present {letter : Char} {sign text : Text} (marked : letter ∈ ['e', 'E'])
    (signed : sign ∈ [[], ['+'], ['-']]) (digits : IsDigits text) :
    IsExponent (letter :: sign ++ text)

/-- A number of any size. -/
inductive IsNumeral : Text → Prop
  | parts {sign whole decimals exponent : Text} (signed : sign ∈ [[], ['-']])
    (isWhole : IsWhole whole) (isDecimals : IsDecimals decimals)
    (isExponent : IsExponent exponent) : IsNumeral (sign ++ whole ++ decimals ++ exponent)

/-! ## Lists and objects -/

variable {α : Type}

/-- Things one after another with commas between them, at least one. -/
inductive Separated (writes : α → Text → Prop) : List α → Text → Prop
  | last {item : α} {text : Text} (one : writes item text) : Separated writes [item] text
  | more {item : α} {items : List α} {text rest : Text} (one : writes item text)
    (others : Separated writes items rest) : Separated writes (item :: items) (text ++ ',' :: rest)

/-- Any number of things between brackets. -/
inductive Bracketed (opening closing : Char) (writes : α → Text → Prop) : List α → Text → Prop
  | empty {gap : Text} (isGap : IsGapText gap) :
    Bracketed opening closing writes [] (opening :: gap ++ [closing])
  | items {items : List α} {text : Text} (separated : Separated writes items text) :
    Bracketed opening closing writes items (opening :: text ++ [closing])

/-- A value of a list, with the gaps around it. -/
inductive IsElement : (value text : Text) → Prop
  | padded {before value after : Text} (gapBefore : IsGapText before) (gapAfter : IsGapText after) :
    IsElement value (before ++ (value ++ after))

/-- A member of an object, with the gaps between and around its parts. The two texts are its name
and its value. -/
inductive IsMember (names : (written name : Text) → Prop) : Text × Text → Text → Prop
  | padded {before written name between lead value after : Text} (gapBefore : IsGapText before)
    (named : names written name) (gapBetween : IsGapText between) (gapLead : IsGapText lead)
    (gapAfter : IsGapText after) :
    IsMember names (name, value)
      (before ++ '"' :: (written ++ '"' :: (between ++ ':' :: (lead ++ (value ++ after)))))

/-- A list of values as they are written. -/
def IsList : (values : List Text) → (text : Text) → Prop := Bracketed '[' ']' IsElement

/-- An object with members of these names and these values as they are written, in this order. -/
def IsObject : (members : List (Text × Text)) → (text : Text) → Prop :=
  Bracketed '\x7b' '\x7d' (IsMember Spells)

/-- A name that nobody asks for stands as it is written. -/
inductive IsLooseName : (written name : Text) → Prop
  | body {written : Text} (isBody : IsBody written) : IsLooseName written written

/-- An object whose names nobody asks for. -/
def IsLooseObject : (members : List (Text × Text)) → (text : Text) → Prop :=
  Bracketed '\x7b' '\x7d' (IsMember IsLooseName)

/-- A value that is JSON, however deep it is nested. -/
inductive IsValue : Text → Prop
  | word {text : Text} (known : text ∈ ["null".toList, "true".toList, "false".toList]) :
    IsValue text
  | numeral {text : Text} (isNumeral : IsNumeral text) : IsValue text
  | quoted {body : Text} (isBody : IsBody body) : IsValue ('"' :: body ++ ['"'])
  | list {values : List Text} {text : Text} (isList : IsList values text)
    (areValues : ∀ value ∈ values, IsValue value) : IsValue text
  | object {members : List (Text × Text)} {text : Text} (isObject : IsLooseObject members text)
    (areValues : ∀ member ∈ members, IsValue member.2) : IsValue text

/-! ## Records -/

/-- Members that make up a record. Names that the record knows come at most once, in any order,
with values as `writes` says, and those that are needed are there. Among them there may be any
number of other names with any values. -/
structure IsRecord {ι : Type} (name : ι → Text) (writes : ι → Text → Prop) (needed : ι → Prop)
    (members : List (Text × Text)) : Prop where
  once : members.Pairwise fun member later => ∀ i, name i = member.1 → name i ≠ later.1
  known : ∀ member ∈ members, ∀ i, name i = member.1 → writes i member.2
  unknown : ∀ member ∈ members, (∀ i, name i ≠ member.1) → IsValue member.2
  complete : ∀ i, needed i → name i ∈ members.map (·.1)

end Errand.Json
