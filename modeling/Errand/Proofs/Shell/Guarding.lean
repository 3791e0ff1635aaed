/-
# What guards a character of a raw word

Quotes and backslashes guard characters from being read as anything but themselves. A raw word is
walked character by character, and every character says what guards the next one. This walk says
all about the text of the word: it tells which characters are quotes or backslashes that do their
work and are therefore no part of the text, and whether a quote is left open at the end. Variables
play no part in it. Unquoting gives exactly what the walk says.
-/
import Errand.Proofs.Shell.Unquoting
import Mathlib.Data.List.Induction

namespace Errand.Shell

/-- What guards the next character of a raw word. -/
inductive Guard where
  /-- Nothing does. -/
  | bare
  /-- A backslash outside quotes. -/
  | escape
  | single
  | double
  /-- A backslash inside double quotes. It is no guard before a character that it cannot protect,
  but then that character needs none. -/
  | doubleEscape
  deriving DecidableEq, Repr

/-- The guard that open quotes are. -/
def Quoting.guard : Quoting → Guard
  | .bare => .bare
  | .single => .single
  | .double => .double

namespace Guard

/-- The guard behind a character. -/
def next : Guard → Char → Guard
  | .bare, c =>
    if c = '\'' then .single else if c = '"' then .double
    else if c = '\\' then .escape else .bare
  | .escape, _ => .bare
  | .single, c => if c = '\'' then .bare else .single
  | .double, c => if c = '"' then .bare else if c = '\\' then .doubleEscape else .double
  | .doubleEscape, _ => .double

/-- The guard behind a text. -/
def behind (guard : Guard) (text : Text) : Guard := text.foldl next guard

/-- The quote that is open where a raw word ends. -/
def openQuote? : Guard → Option Char
  | .bare => none
  | .escape => none
  | .single => some '\''
  | .double => some '"'
  | .doubleEscape => some '"'

/-- Whether a character is a quote that opens or ends quotes, or a backslash that protects the
character `next` behind it. -/
def drops (guard : Guard) (c : Char) (next : Option Char) : Bool :=
  match guard with
  | .bare => c = '\'' || c = '"' || (c = '\\' && next.isSome)
  | .single => c = '\''
  | .double => c = '"' || (c = '\\' && next.any isEscapable)
  | .escape => false
  | .doubleEscape => false

/-- What a piece of a raw word adds to the text of the word: all of it but quotes and backslashes
that do their work. The raw word goes on with `more`. -/
def kept (guard : Guard) (piece more : Text) : Text :=
  match piece with
  | [] => []
  | c :: piece =>
    (if guard.drops c (piece ++ more).head? then [] else [c]) ++ (guard.next c).kept piece more

/-- What a raw word is read as from a guard on: its text, or the quote that is left open. -/
def read (guard : Guard) (raw : Text) : Except Char Text :=
  match (guard.behind raw).openQuote? with
  | some quote => .error quote
  | none => .ok (guard.kept raw [])

variable (guard : Guard)

@[simp] theorem behind_nil : guard.behind [] = guard := rfl

@[simp] theorem behind_cons (c : Char) (text : Text) :
    guard.behind (c :: text) = (guard.next c).behind text := rfl

@[simp] theorem behind_append (text other : Text) :
    guard.behind (text ++ other) = (guard.behind text).behind other :=
  List.foldl_append

@[simp] theorem kept_nil (more : Text) : guard.kept [] more = [] := rfl

theorem kept_cons (c : Char) (piece more : Text) :
    guard.kept (c :: piece) more =
      (if guard.drops c (piece ++ more).head? then [] else [c]) ++
        (guard.next c).kept piece more := rfl

/-- Two pieces one behind the other add what each of them adds. -/
theorem kept_append (piece other more : Text) :
    guard.kept (piece ++ other) more =
      guard.kept piece (other ++ more) ++ (guard.behind piece).kept other more := by
  induction piece generalizing guard with
  | nil => rfl
  | cons c piece ih =>
      rw [List.cons_append, kept_cons, kept_cons, ih, List.append_assoc, List.append_assoc]
      rfl

theorem read_cons (c : Char) (rest : Text) :
    guard.read (c :: rest) =
      ((guard.next c).read rest).map
        ((if guard.drops c rest.head? then [] else [c]) ++ ·) := by
  rw [read, read, behind_cons, kept_cons, List.append_nil]
  cases ((guard.next c).behind rest).openQuote? <;> rfl

/-- A backslash and the character behind it, where a backslash can mean anything. -/
theorem read_backslash {quoting : Quoting} {c : Char} {rest : Text}
    (notSingle : quoting ≠ .single) :
    quoting.guard.read ('\\' :: c :: rest) = (quoting.guard.read rest).map
      ((if quoting = .bare ∨ isEscapable c = true then [c] else ['\\', c]) ++ ·) := by
  rw [read_cons, read_cons]
  cases quoting with
  | single => exact absurd rfl notSingle
  | bare =>
      cases reads : read .bare rest <;> simp [Quoting.guard, next, drops, reads, Except.map]
  | double =>
      cases reads : read .double rest <;> cases taken : isEscapable c <;>
        simp [Quoting.guard, next, drops, reads, taken, Except.map]

end Guard

namespace Word

variable {quoting : Quoting} {c : Char}

/-- One character that is no backslash is read as the walk says. -/
theorem exists_textFrom_cons (rest : Text) (unescaping : c = '\\' → quoting = .single) :
    ∃ later : Quoting, later.guard = quoting.guard.next c ∧
      textFrom quoting (c :: rest) =
        (textFrom later rest).map
          ((if quoting.guard.drops c rest.head? then [] else [c]) ++ ·) := by
  have dropped (result : Except Char Text) : result = result.map ([] ++ ·) := by
    cases result <;> rfl
  cases quoting with
  | single =>
      by_cases closing : c = '\''
      · subst closing
        exact ⟨.bare, rfl, (textFrom_closeQuote rest .single).trans (dropped _)⟩
      · refine ⟨.single, by simp [Quoting.guard, Guard.next, closing], ?_⟩
        simpa [Quoting.guard, Guard.drops, closing] using textFrom_single rest closing
  | bare =>
      have notBackslash : c ≠ '\\' := fun backslash => Quoting.noConfusion (unescaping backslash)
      by_cases opensSingle : c = '\''
      · subst opensSingle
        exact ⟨.single, rfl, (textFrom_quote rest .single).trans (dropped _)⟩
      by_cases opensDouble : c = '"'
      · subst opensDouble
        exact ⟨.double, rfl, (textFrom_quote rest .double).trans (dropped _)⟩
      refine ⟨.bare, ?_, ?_⟩
      · simp [Quoting.guard, Guard.next, opensSingle, opensDouble, notBackslash]
      · simpa [Quoting.guard, Guard.drops, opensSingle, opensDouble, notBackslash] using
          textFrom_plain rest (by decide) ⟨notBackslash, opensDouble⟩
            fun quote => absurd quote opensSingle
  | double =>
      have notBackslash : c ≠ '\\' := fun backslash => Quoting.noConfusion (unescaping backslash)
      by_cases closing : c = '"'
      · subst closing
        exact ⟨.bare, rfl, (textFrom_closeQuote rest .double).trans (dropped _)⟩
      · refine ⟨.double, by simp [Quoting.guard, Guard.next, closing, notBackslash], ?_⟩
        simpa [Quoting.guard, Guard.drops, closing, notBackslash] using
          textFrom_plain rest (by decide) ⟨notBackslash, closing⟩ fun _ => by decide

/-- Unquoting reads a raw word as the walk says. A backslash and the character behind it are one
step, hence the induction by two. -/
theorem textFrom_eq_read (quoting : Quoting) (raw : Text) :
    textFrom quoting raw = quoting.guard.read raw := by
  have oneStep {c : Char} {rest : Text} {quoting : Quoting}
      (unescaping : c = '\\' → quoting = .single)
      (ih : ∀ quoting : Quoting, textFrom quoting rest = quoting.guard.read rest) :
      textFrom quoting (c :: rest) = quoting.guard.read (c :: rest) := by
    obtain ⟨later, leads, reads⟩ := exists_textFrom_cons rest unescaping
    rw [reads, ih, leads, Guard.read_cons]
  have ended (quoting : Quoting) : textFrom quoting [] = quoting.guard.read [] := by
    cases quoting <;> rw [textFrom, unquoteFrom] <;> rfl
  induction raw using List.twoStepInduction generalizing quoting with
  | nil => exact ended quoting
  | singleton c =>
      by_cases unescaping : c = '\\' → quoting = .single
      · exact oneStep unescaping ended
      · obtain ⟨rfl, notSingle⟩ := Classical.not_imp.mp unescaping
        cases quoting with
        | single => exact absurd rfl notSingle
        | bare | double =>
            simp only [textFrom, unquoteFrom]
            rfl
  | cons_cons c next rest ofRest ofNext =>
      by_cases unescaping : c = '\\' → quoting = .single
      · exact oneStep unescaping fun quoting => ofNext next quoting
      · obtain ⟨rfl, notSingle⟩ := Classical.not_imp.mp unescaping
        rw [Guard.read_backslash notSingle, ← ofRest]
        by_cases taken : quoting = .bare ∨ isEscapable next = true
        · rw [if_pos taken]
          exact textFrom_backslash rest notSingle taken
        · obtain ⟨notBare, idle⟩ := not_or.mp taken
          obtain rfl : quoting = .double := by cases quoting <;> simp_all
          rw [if_neg taken]
          exact textFrom_idleBackslash rest (by simpa using idle)

theorem textFrom_of_unquote {raw : Text} {word : Word} (unquotes : unquote raw = .ok word) :
    textFrom .bare raw = .ok word.text := by
  rw [textFrom, unquoteFrom_of_unquote unquotes]
  rfl

/-- The text of a raw word is what quotes and backslashes at work leave of it. -/
theorem text_eq_kept {raw : Text} {word : Word} (unquotes : unquote raw = .ok word) :
    word.text = Guard.bare.kept raw [] := by
  have reads := textFrom_of_unquote unquotes
  rw [textFrom_eq_read, Guard.read] at reads
  split at reads
  · cases reads
  · exact (Except.ok.inj reads).symm

/-- A raw word can be unquoted exactly if it leaves no quote open. -/
theorem exists_unquote_iff {raw : Text} :
    (∃ word, unquote raw = .ok word) ↔ (Guard.bare.behind raw).openQuote? = none := by
  have reads := textFrom_eq_read .bare raw
  rw [Guard.read] at reads
  constructor
  · rintro ⟨word, unquotes⟩
    rw [textFrom_of_unquote unquotes] at reads
    split at reads
    · cases reads
    · next closed => exact closed
  · intro closed
    rw [Quoting.guard, closed] at reads
    obtain ⟨word, unquotes, -⟩ := exists_unquote_of_textFrom reads
    exact ⟨word, unquotes⟩

end Word

end Errand.Shell
