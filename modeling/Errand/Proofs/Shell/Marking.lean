/-
# References noted in passing

Quotes can be removed in one pass that writes the text of a word and, at each reference, notes how
many bytes the text has before it and behind it. Nothing is read off parts then: the offsets are
right only because the text never changes in front of where it grows, and the name of a reference
is what stands between two places in the raw word.

Such a pass is stated here beside the one that takes a word apart. It fails where that one fails
and otherwise ends with the text of the parts and the places that the parts give.
-/
import Errand.Proofs.Shell.Dollars

namespace Errand.Shell

/-! ## References by their length -/

/-- How many characters of a text go on with a name. `isFirst` says that it begins there. -/
def nameLength (isFirst : Bool) : Text → Nat
  | [] => 0
  | c :: rest =>
    if (if isFirst then isNameStart c else isNameChar c) then nameLength false rest + 1 else 0

/-- The name behind a dollar sign and how many characters the reference takes with its braces. -/
def referenceAt? (rest : Text) : Option (Text × Nat) :=
  let start := if rest.head? = some '{' then 1 else 0
  let stop := start + nameLength true (rest.drop start)
  let name := (rest.take stop).drop start
  if stop = start then none
  else if start = 0 then some (name, stop)
  else if rest[stop]? = some '}' then some (name, stop + 1)
  else none

/-- The characters of a name are counted as they are taken. -/
theorem nameLength_false (text : Text) :
    text.take (nameLength false text) = text.takeWhile isNameChar ∧
      text.drop (nameLength false text) = text.dropWhile isNameChar := by
  induction text with
  | nil => exact ⟨rfl, rfl⟩
  | cons c rest ih =>
      rw [nameLength, List.takeWhile_cons, List.dropWhile_cons]
      cases goesOn : isNameChar c with
      | false => exact ⟨rfl, rfl⟩
      | true => exact ⟨congrArg (c :: ·) ih.1, ih.2⟩

/-- A name is as long as its characters go on. -/
theorem name?_eq_take (text : Text) : name? text =
    if nameLength true text = 0 then none
    else some (text.take (nameLength true text), text.drop (nameLength true text)) := by
  cases text with
  | nil => rfl
  | cons c rest =>
      obtain ⟨taken, left⟩ := nameLength_false rest
      rw [name?, nameLength]
      cases starts : isNameStart c with
      | false => rfl
      | true =>
          rw [← taken, ← left]
          rfl

theorem nameLength_le (isFirst : Bool) (text : Text) : nameLength isFirst text ≤ text.length := by
  fun_induction nameLength isFirst text with
  | case1 => exact Nat.zero_le _
  | case2 isFirst c rest goesOn ih => exact Nat.succ_le_succ ih
  | case3 isFirst c rest stops => exact Nat.zero_le _

/-- A name is as long as it is counted. -/
theorem nameLength_of_name? {text name after : Text} (named : name? text = some (name, after)) :
    nameLength true text = name.length := by
  have most := nameLength_le true text
  rw [name?_eq_take] at named
  split at named
  · cases named
  · obtain ⟨rfl, -⟩ := Prod.mk.inj (Option.some.inj named)
    rw [List.length_take, Nat.min_eq_left most]

/-- Without a brace in front the name is the whole reference. -/
theorem referenceAt?_of_noBrace {rest : Text} (noBrace : ∀ inner, rest ≠ '{' :: inner) :
    referenceAt? rest =
      (name? rest).map fun found => (found.1, nameLength true rest) := by
  have other : rest.head? ≠ some '{' := by
    intro first
    obtain ⟨inner, brace⟩ := List.head?_eq_some_iff.mp first
    exact noBrace inner brace
  rw [name?_eq_take]
  simp only [referenceAt?, if_neg other, List.drop_zero, Nat.zero_add, if_true]
  split <;> rfl

/-- A brace must be closed right behind the name. -/
theorem referenceAt?_of_brace (inner : Text) : referenceAt? ('{' :: inner) =
    (name? inner).bind fun found =>
      if found.2.head? = some '}' then some (found.1, nameLength true inner + 2) else none := by
  rw [name?_eq_take]
  simp only [referenceAt?, List.head?_cons, if_true, List.drop_succ_cons, List.drop_zero,
    Nat.add_comm 1, List.take_succ_cons, List.getElem?_cons_succ, Nat.add_eq_right,
    Nat.one_ne_zero, if_false]
  split
  · rfl
  · rw [Option.bind_some, List.head?_drop]

/-- A reference is found with its name, and takes as many characters as its text has. -/
theorem referenceAt?_of_some {rest after : Text} {part : Part}
    (found : reference? rest = some (part, after)) :
    ∃ name braced body, part = .reference name braced ∧ rest = body ++ after ∧
      part.text = '$' :: body ∧ referenceAt? rest = some (name, body.length) := by
  obtain ⟨body, whole, spelled, -⟩ := append_of_reference? found
  unfold reference? at found
  split at found
  · next inner =>
      split at found
      · next name behind named =>
          cases found
          refine ⟨name, true, body, rfl, whole, spelled, ?_⟩
          rw [referenceAt?_of_brace, named, Option.bind_some, List.head?_cons, if_pos rfl]
          have written : '{' :: (name ++ ['}']) = body := (List.cons.inj spelled).2
          rw [nameLength_of_name? named, ← written, List.length_cons, List.length_append,
            List.length_singleton]
      · cases found
  · next noBrace =>
      obtain ⟨⟨name, behind⟩, named, same⟩ := Option.map_eq_some_iff.mp found
      cases same
      refine ⟨name, false, body, rfl, whole, spelled, ?_⟩
      rw [referenceAt?_of_noBrace fun inner brace => noBrace inner brace, named,
        Option.map_some, nameLength_of_name? named, ← (List.cons.inj spelled).2]

/-- Where no reference is read, none is found. -/
theorem referenceAt?_of_none {rest : Text} (missing : reference? rest = none) :
    referenceAt? rest = none := by
  unfold reference? at missing
  split at missing
  · next inner =>
      rw [referenceAt?_of_brace]
      split at missing
      · cases missing
      · next unclosed =>
          cases named : name? inner with
          | none => rfl
          | some found =>
              obtain ⟨name, behind⟩ := found
              rw [Option.bind_some, if_neg]
              intro closes
              obtain ⟨after, rfl⟩ := List.head?_eq_some_iff.mp closes
              exact unclosed name after named
  · next noBrace =>
      rw [referenceAt?_of_noBrace fun inner brace => noBrace inner brace,
        Option.map_eq_none_iff.mp missing]
      rfl

/-! ## One pass -/

/-- The text of a word so far and the references in it. -/
structure Marked where
  text : Text
  references : List Reference
  deriving DecidableEq, Repr

namespace Marked

/-- One more character of the text. -/
def push (marked : Marked) (c : Char) : Marked := { marked with text := marked.text ++ [c] }

/-- One more reference, with its place in the text. -/
def refer (marked : Marked) (name written : Text) : Marked :=
  let text := marked.text ++ written
  ⟨text, marked.references ++ [⟨name, Utf8.size marked.text, Utf8.size text⟩]⟩

/-- What is noted behind the rest of a word. -/
def extend (marked : Marked) (word : Word) : Marked :=
  ⟨marked.text ++ word.text, marked.references ++ word.referencesFrom (Utf8.size marked.text)⟩

/-- The pass over the rest of a raw word. -/
def readFrom : Quoting → Marked → Text → Except Char Marked
  | .bare, marked, [] => .ok marked
  | .single, _, [] => .error '\''
  | .double, _, [] => .error '"'
  | .single, marked, c :: rest =>
    if c = '\'' then readFrom .bare marked rest else readFrom .single (marked.push c) rest
  | quoting, marked, c :: rest =>
    if c = '\\' then
      match rest with
      | [] => readFrom quoting (marked.push c) []
      | next :: behind =>
        if quoting = .bare || isEscapable next then readFrom quoting (marked.push next) behind
        else readFrom quoting (marked.push c) (next :: behind)
    else if c = '$' then
      match referenceAt? rest with
      | some (name, taken) =>
        readFrom quoting (marked.refer name ('$' :: rest.take taken)) (rest.drop taken)
      | none => readFrom quoting (marked.push c) rest
    else if c = '"' then readFrom (if quoting = .bare then .double else .bare) marked rest
    else if c = '\'' && quoting = .bare then readFrom .single marked rest
    else readFrom quoting (marked.push c) rest
termination_by _ _ raw => raw.length
decreasing_by all_goals simp only [List.length_cons, List.length_drop]; omega

/-- The pass over a raw word. -/
def read (raw : Text) : Except ParseFault Marked :=
  (readFrom .bare ⟨[], []⟩ raw).mapError (.openQuote · raw)

theorem extend_literal (marked : Marked) (c : Char) (word : Word) :
    marked.extend (.literal c :: word) = (marked.push c).extend word := by
  simp [extend, push, Word.text, Word.referencesFrom, Part.text]

theorem extend_reference (marked : Marked) {name written : Text} {braced : Bool}
    (spelled : (Part.reference name braced).text = written) (word : Word) :
    marked.extend (.reference name braced :: word) = (marked.refer name written).extend word := by
  simp [extend, refer, Word.text, Word.referencesFrom, spelled]

/-- A character that is kept is one more character of the text. -/
theorem map_extend_literal (marked : Marked) (c : Char) (result : Except Char Word) :
    (result.map (.literal c :: ·)).map marked.extend = result.map (marked.push c).extend := by
  cases result with
  | error quote => rfl
  | ok word => exact congrArg Except.ok (extend_literal marked c word)

/-- A reference is noted behind the text so far. -/
theorem map_extend_reference (marked : Marked) {name written : Text} {braced : Bool}
    (spelled : (Part.reference name braced).text = written) (result : Except Char Word) :
    (result.map (.reference name braced :: ·)).map marked.extend =
      result.map (marked.refer name written).extend := by
  cases result with
  | error quote => rfl
  | ok word => exact congrArg Except.ok (extend_reference marked spelled word)

/-- Whatever the text is so far, the pass goes on with the parts of the rest. -/
theorem readFrom_eq (quoting : Quoting) (marked : Marked) (raw : Text) :
    readFrom quoting marked raw = (Word.unquoteFrom quoting raw).map marked.extend := by
  fun_induction readFrom quoting marked raw with
  | case1 marked =>
      rw [Word.unquoteFrom]
      simp [Except.map, extend, Word.text, Word.referencesFrom]
  | case2 | case3 =>
      rw [Word.unquoteFrom]
      rfl
  | case4 marked rest ih => rw [ih, Word.unquoteFrom, if_pos rfl]
  | case5 marked c rest other ih =>
      rw [ih, Word.unquoteFrom_single rest other, map_extend_literal]
  | case6 quoting marked notSingle ih =>
      rw [ih, ← map_extend_literal, Word.unquoteFrom, if_pos rfl]
      exact notSingle
  | case7 quoting marked notSingle next behind taken ih =>
      have escapes : quoting = .bare ∨ isEscapable next = true := by simpa using taken
      rw [ih, Word.unquoteFrom_backslash behind notSingle escapes, map_extend_literal]
  | case8 quoting marked notSingle next behind idle ih =>
      rw [ih, ← map_extend_literal, Word.unquoteFrom, if_pos rfl, if_neg idle]
      exact notSingle
  | case9 quoting marked rest notSingle name taken found notBackslash ih =>
      cases read : reference? rest with
      | none => cases found.symm.trans (referenceAt?_of_none read)
      | some reference =>
          obtain ⟨part, after⟩ := reference
          obtain ⟨_, braced, body, rfl, rfl, spelled, foundToo⟩ := referenceAt?_of_some read
          cases found.symm.trans foundToo
          rw [List.take_left, List.drop_left] at ih ⊢
          rw [ih, Word.unquoteFrom_reference notSingle read, map_extend_reference marked spelled]
  | case10 quoting marked rest notSingle missing notBackslash ih =>
      have reads : reference? rest = none := by
        cases read : reference? rest with
        | none => rfl
        | some reference =>
            obtain ⟨_, _, _, _, _, _, found⟩ := referenceAt?_of_some read
            cases missing.symm.trans found
      rw [ih, Word.unquoteFrom_loneDollar notSingle reads, map_extend_literal]
  | case11 quoting marked rest notSingle notBackslash notDollar ih =>
      rw [Word.unquoteFrom.eq_def]
      cases quoting with
      | single => exact absurd rfl notSingle
      | bare | double => exact ih
  | case12 quoting marked c rest notSingle notBackslash notDollar notDouble opens ih =>
      obtain ⟨rfl, rfl⟩ : c = '\'' ∧ quoting = .bare := by simpa using opens
      exact ih.trans (congrArg (Except.map marked.extend) (Word.unquoteFrom_quote rest .single).symm)
  | case13 quoting marked c rest notSingle notBackslash notDollar notDouble stays ih =>
      have protects : c = '\'' → quoting ≠ .bare := by simpa using stays
      rw [ih, Word.unquoteFrom_ordinary rest notSingle ⟨notBackslash, notDouble, notDollar⟩ protects,
        map_extend_literal]

/-- The pass gives the text of the word and its references in their places, and fails on the raw
words that cannot be unquoted. -/
theorem read_eq (raw : Text) :
    read raw = (Word.unquote raw).map fun word => ⟨word.text, word.references⟩ := by
  rw [read, readFrom_eq, Word.unquote]
  cases Word.unquoteFrom .bare raw with
  | error quote => rfl
  | ok word => rfl

/-- The first dollar sign is escaped, and the backslash and the quotes take no place in the text. -/
example : read "\\$a\"$\x7bb\x7d\"x".toList = .ok ⟨"$a$\x7bb\x7dx".toList, [⟨['b'], 2, 6⟩]⟩ := by
  decide +kernel

end Marked

end Errand.Shell
