/-
# References in their places

The parts of a word say where its references stand, and substitution takes a word apart. A caller
that holds only the text of a word has offsets in bytes instead, looks a word up by its number and
puts a value in place of a range of bytes. Each of these steps can miss: a number may be too large
and an offset may fall outside the text or inside a character. On the stages of a line none of them
does, after any number of rounds of substitution, and what comes of them is what the parts give.
-/
import Errand.Local.Line
import Errand.Proofs.Shell.Spelling
import Errand.Proofs.Text.Offsets

namespace Errand.Shell

/-! ## Names -/

/-- What is taken from the front of a text as a name is one. -/
theorem isName_of_name? {text name after : Text} (found : name? text = some (name, after)) :
    IsName name := by
  cases text with
  | nil => cases found
  | cons c rest =>
      rw [name?] at found
      split at found
      · next starts =>
          cases found
          refine ⟨by simpa [isNameStart] using starts, fun d member => ?_⟩
          have letter := List.all_eq_true.mp List.all_takeWhile d member
          simpa [isNameChar, isNameStart, Char.isAlphanum, or_assoc] using letter
      · cases found

/-- So is what a reference is made with. -/
theorem isName_of_reference? {text after : Text} {part : Part}
    (found : reference? text = some (part, after)) : ∀ name ∈ part.name?, IsName name := by
  unfold reference? at found
  split at found
  · split at found
    · next named =>
        cases found
        rintro name ⟨⟩
        exact isName_of_name? named
    · cases found
  · obtain ⟨⟨taken, behind⟩, named, same⟩ := Option.map_eq_some_iff.mp found
    cases same
    rintro name ⟨⟩
    exact isName_of_name? named

namespace Word

/-- A word that refers to variables by names. -/
def IsNamed (word : Word) : Prop := ∀ part ∈ word, ∀ name ∈ part.name?, IsName name

theorem isNamed_ofText (text : Text) : (ofText text).IsNamed := by
  intro part literal name referred
  obtain ⟨c, -, rfl⟩ := List.mem_map.mp literal
  cases referred

/-- One more part is one more name to check. -/
theorem isNamed_of_map {result : Except Char Word} {part : Part} {word : Word}
    (unquotes : result.map (part :: ·) = .ok word) (named : ∀ name ∈ part.name?, IsName name)
    (rest : ∀ later, result = .ok later → later.IsNamed) : word.IsNamed := by
  obtain ⟨later, found, rfl⟩ := exists_of_map_eq_ok unquotes
  exact List.forall_mem_cons.mpr ⟨named, rest later found⟩

/-- Only a dollar sign brings in a name, and the name behind it has been checked. -/
theorem isNamed_of_unquoteFrom {quoting : Quoting} {raw : Text} {word : Word}
    (unquotes : unquoteFrom quoting raw = .ok word) : word.IsNamed := by
  have literal (c : Char) : ∀ name ∈ (Part.literal c).name?, IsName name := by
    rintro name ⟨⟩
  fun_induction unquoteFrom quoting raw generalizing word with
  | case1 =>
      cases unquotes
      exact List.forall_mem_nil _
  | case2 | case3 => cases unquotes
  | case4 rest ih => exact ih unquotes
  | case5 c rest other ih => exact isNamed_of_map unquotes (literal c) fun _ => ih
  | case6 quoting notSingle ih => exact isNamed_of_map unquotes (literal '\\') fun _ => ih
  | case7 quoting notSingle next behind taken ih =>
      exact isNamed_of_map unquotes (literal next) fun _ => ih
  | case8 quoting notSingle next behind idle ih =>
      exact isNamed_of_map unquotes (literal '\\') fun _ => ih
  | case9 quoting rest notSingle part after found notBackslash ih =>
      exact isNamed_of_map unquotes (isName_of_reference? found) fun _ => ih
  | case10 quoting rest notSingle missing notBackslash ih =>
      exact isNamed_of_map unquotes (literal '$') fun _ => ih
  | case11 quoting rest notSingle notBackslash notDollar ih => exact ih unquotes
  | case12 quoting c rest notSingle notBackslash notDollar notDouble opens ih => exact ih unquotes
  | case13 quoting c rest notSingle notBackslash notDollar notDouble stays ih =>
      exact isNamed_of_map unquotes (literal c) fun _ => ih

theorem isNamed_of_unquote {raw : Text} {word : Word} (unquotes : unquote raw = .ok word) :
    word.IsNamed :=
  isNamed_of_unquoteFrom (unquoteFrom_of_unquote unquotes)

end Word

namespace Pipeline

/-- What holds of every unquoted word and of every text holds of the words that items are grouped
into. -/
theorem forall_word_of_group {P : Word → Prop}
    (unquoted : ∀ raw word, Word.unquote raw = .ok word → P word)
    (literal : ∀ text, P (Word.ofText text)) {isFirst : Bool} {preceding : Option Separator}
    {collected : List Word} {items : List Item} {stages : List Stage}
    (grouped : group isFirst preceding collected items = .ok stages)
    (held : ∀ word ∈ collected, P word) :
    ∀ stage ∈ stages, ∀ word ∈ stage.command.words, P word := by
  have closed {isFirst : Bool} {preceding : Option Separator} {collected : List Word}
      (held : ∀ word ∈ collected, P word) :
      ∀ stage ∈ closeGroup isFirst preceding collected, ∀ word ∈ stage.command.words, P word := by
    intro stage member
    rw [closeGroup] at member
    split at member
    · cases member
    · obtain rfl := List.mem_singleton.mp member
      exact held
  have more {collected : List Word} {next : Word} (held : ∀ word ∈ collected, P word)
      (holds : P next) : ∀ word ∈ collected ++ [next], P word :=
    List.forall_mem_append.mpr ⟨held, List.forall_mem_singleton.mpr holds⟩
  induction items generalizing isFirst preceding collected stages with
  | nil =>
      obtain rfl := Except.ok.inj grouped
      exact closed held
  | cons item items ih =>
      cases item with
      | word raw =>
          obtain ⟨word, unquotes, behind⟩ := exists_of_group_word grouped
          exact ih behind (more held (unquoted raw word unquotes))
      | literal text => exact ih grouped (more held (literal text))
      | cut s =>
          obtain ⟨later, behind, rfl⟩ := exists_of_group_cut grouped
          exact List.forall_mem_append.mpr ⟨closed held, ih behind (List.forall_mem_nil P)⟩

/-- The words of a line refer to variables by names. -/
theorem isNamed_of_split {line : Text} {stages : List Stage} (splits : split line = .ok stages) :
    ∀ stage ∈ stages, ∀ word ∈ stage.command.words, word.IsNamed := by
  rcases group_or_single_of_split splits with ⟨items, grouped, -⟩ | ⟨words, -, rfl⟩
  · exact forall_word_of_group (fun _ _ => Word.isNamed_of_unquote) Word.isNamed_ofText grouped
      (List.forall_mem_nil _)
  · rw [List.forall_mem_singleton]
    exact List.forall_mem_map.mpr fun text _ => Word.isNamed_ofText text

end Pipeline

/-! ## Places in a text -/

/-- Whether a text has, at the place of a reference, the reference and nothing else. -/
structure Reference.IsSound (text : Text) (reference : Reference) : Prop where
  named : IsName reference.name
  inPlace : Utf8.slice? reference.start reference.stop text = some ('$' :: reference.name) ∨
    Utf8.slice? reference.start reference.stop text =
      some ('$' :: '{' :: (reference.name ++ ['}']))

/-- Whether some references stand in a text one behind the other. -/
structure Marks (text : Text) (references : List Reference) : Prop where
  sound : ∀ reference ∈ references, reference.IsSound text
  inOrder : references.Pairwise fun earlier later => earlier.stop ≤ later.start

namespace Word

/-- No reference begins before the word it is in. -/
theorem le_of_mem_referencesFrom {start : Nat} {word : Word} {reference : Reference}
    (member : reference ∈ referencesFrom start word) : start ≤ reference.start := by
  induction word generalizing start with
  | nil => cases member
  | cons part word ih =>
      cases part with
      | literal c => exact Nat.le_trans (Nat.le_add_right _ _) (ih member)
      | reference name braced =>
          rcases List.mem_cons.mp member with rfl | later
          · exact Nat.le_refl _
          · exact Nat.le_trans (Nat.le_add_right _ _) (ih later)

/-- The references of a word mark its text, with any text before it. -/
theorem marks_referencesFrom {word : Word} (named : word.IsNamed) (before : Text) :
    Marks (before ++ word.text) (referencesFrom (Utf8.size before) word) := by
  induction word generalizing before with
  | nil => exact ⟨List.forall_mem_nil _, List.Pairwise.nil⟩
  | cons part word ih =>
      obtain ⟨here, behind⟩ := List.forall_mem_cons.mp named
      have later := ih behind (before ++ part.text)
      have whole : before ++ text (part :: word) = before ++ part.text ++ text word :=
        (List.append_assoc _ _ _).symm
      rw [Utf8.size_append, ← whole] at later
      cases part with
      | literal c => exact later
      | reference name braced =>
          have inPlace := Utf8.slice?_eq_some_iff.mpr
            ⟨before, text word, whole, rfl, Utf8.size_append _ _⟩
          refine ⟨List.forall_mem_cons.mpr ⟨⟨here name rfl, ?_⟩, later.sound⟩,
            List.pairwise_cons.mpr ⟨fun _ => le_of_mem_referencesFrom, later.inOrder⟩⟩
          cases braced with
          | false => exact .inl inPlace
          | true => exact .inr inPlace

theorem marks_references {word : Word} (named : word.IsNamed) :
    Marks word.text word.references :=
  marks_referencesFrom named []

/-! ## Substitution by place -/

/-- The first reference to a known variable, with the value. -/
def known? (env : Environment) (references : List Reference) : Option (Reference × Text) :=
  references.findSome? fun reference => (env.get? reference.name).map fun value =>
    (reference, value)

/-- Where no variable is known, nothing is put into the word. -/
theorem expandFirst?_of_known?_eq_none {env : Environment} {word : Word}
    (unknown : known? env word.references = none) : word.expandFirst? env = none := by
  refine expandFirst?_of_unknown fun reference member => ?_
  exact Option.map_eq_none_iff.mp (List.findSome?_eq_none_iff.mp unknown reference member)

/-- The value takes the place of the reference in a word that begins `start` bytes into a text,
and all else is kept as literal text. -/
def Replaces (env : Environment) (start : Nat) (word : Word) (reference : Reference)
    (value : Text) : Prop :=
  ∃ before part behind, word.text = before ++ part ++ behind ∧
    reference.start = start + Utf8.size before ∧
    reference.stop = reference.start + Utf8.size part ∧
    word.expandFirst? env = some (ofText (before ++ value ++ behind))

theorem replaces_here {env : Environment} {name value : Text} (known : env.get? name = some value)
    (start : Nat) (braced : Bool) (word : Word) :
    Replaces env start (.reference name braced :: word)
      ⟨name, start, start + Utf8.size (Part.reference name braced).text⟩ value := by
  refine ⟨[], (Part.reference name braced).text, text word, rfl, rfl, rfl, ?_⟩
  rw [expandFirst?, Part.name?, Option.bind_some, known]
  rfl

/-- A part that refers to nothing known is passed over. -/
theorem Replaces.cons {env : Environment} {start : Nat} {part : Part} {word : Word}
    {reference : Reference} {value : Text} (silent : part.name?.bind env.get? = none)
    (later : Replaces env (start + Utf8.size part.text) word reference value) :
    Replaces env start (part :: word) reference value := by
  obtain ⟨before, marked, behind, whole, starts, stops, expanded⟩ := later
  refine ⟨part.text ++ before, marked, behind, ?_, ?_, stops, ?_⟩
  · show part.text ++ text word = _
    rw [whole]
    simp only [List.append_assoc]
  · rw [starts, Utf8.size_append, Nat.add_assoc]
  · rw [expandFirst?, silent]
    simp only [expanded, Option.map_some, ofText, ← List.map_append, List.append_assoc]

/-- The place of a reference is where its value goes. -/
theorem replaces_of_known? {env : Environment} {start : Nat} {word : Word}
    {reference : Reference} {value : Text}
    (known : known? env (referencesFrom start word) = some (reference, value)) :
    Replaces env start word reference value := by
  induction word generalizing start with
  | nil => cases known
  | cons part word ih =>
      cases part with
      | literal c => exact .cons rfl (ih known)
      | reference name braced =>
          rw [referencesFrom, known?, List.findSome?_cons] at known
          cases found : env.get? name with
          | none =>
              rw [found] at known
              exact .cons found (ih known)
          | some here =>
              rw [found] at known
              cases known
              exact replaces_here found start braced word

/-- Replacing the bytes that a reference takes up is substitution in the parts. -/
theorem exists_of_known? {env : Environment} {word : Word} {reference : Reference} {value : Text}
    (known : known? env word.references = some (reference, value)) :
    ∃ expanded, Utf8.replaceSlice? reference.start reference.stop value word.text = some expanded ∧
      word.expandFirst? env = some (ofText expanded) := by
  obtain ⟨before, part, behind, whole, starts, stops, expanded⟩ := replaces_of_known? known
  refine ⟨before ++ value ++ behind, ?_, expanded⟩
  rw [stops, starts, Nat.zero_add, whole, Utf8.replaceSlice?_append]

end Word

/-! ## Commands laid out -/

/-- A command as a caller sees it: the texts of its words, and beside each the references in it. -/
structure Layout where
  args : List Text
  references : List (List Reference)
  deriving DecidableEq, Repr

/-- A command laid out. -/
def Command.layout (command : Command) : Layout :=
  ⟨command.args, command.words.map Word.references⟩

namespace Layout

/-- Whether each word has its own references, and they mark its text. -/
def IsSound (layout : Layout) : Prop := List.Forall₂ Marks layout.args layout.references

/-- The number of the first word that refers to a known variable, with the first such reference
and the value. -/
def firstKnown? (env : Environment) : List (List Reference) → Option (Nat × Reference × Text)
  | [] => none
  | references :: later =>
    match Word.known? env references with
    | some found => some (0, found)
    | none => (firstKnown? env later).map fun (number, found) => (number + 1, found)

/-- One round of substitution by numbers and offsets. The word it goes into has no references
left. Gives nothing if a number or an offset is out of range. -/
def expandFirst? (env : Environment) (layout : Layout) : Option Layout :=
  match firstKnown? env layout.references with
  | none => some layout
  | some (number, reference, value) => do
    let text ← layout.args[number]?
    let expanded ← Utf8.replaceSlice? reference.start reference.stop value text
    let _ ← layout.references[number]?
    return ⟨layout.args.set number expanded, layout.references.set number []⟩

/-- One round of substitution after another. -/
def expandAll? (envs : List Environment) (layout : Layout) : Option Layout :=
  envs.foldlM (fun layout env => layout.expandFirst? env) layout

/-- The members of a list from a number on, which must not be beyond its end. -/
def sliceFrom? {α : Type} (number : Nat) (members : List α) : Option (List α) :=
  if number ≤ members.length then some (members.drop number) else none

/-- What a command does in a context, by numbers and offsets. Gives nothing if one of them is out
of range. -/
def task? (context : Run.Context) (layout : Layout) : Option Local.Task :=
  match layout.args.head? with
  | some ['c', 'd'] => some (.changeDir layout.args[1]?)
  | some ['e', 'x', 'p', 'o', 'r', 't'] => (sliceFrom? 1 layout.args).map .assign
  | _ => (layout.expandFirst? context.env).map fun expanded =>
      match expanded.args with
      | [] => .nothing
      | program :: args => .start program args

/-- What a search for a known variable finds, and what substitution makes of it. -/
theorem expandWords_eq (env : Environment) (words : List Word) :
    match firstKnown? env (words.map Word.references) with
    | none => Command.expandWords env words = words
    | some (number, reference, value) => ∃ word expanded, words[number]? = some word ∧
        Utf8.replaceSlice? reference.start reference.stop value word.text = some expanded ∧
        Command.expandWords env words = words.set number (Word.ofText expanded) := by
  induction words with
  | nil => rfl
  | cons word words ih =>
      rw [List.map_cons, firstKnown?, Command.expandWords]
      cases known : Word.known? env word.references with
      | some found =>
          obtain ⟨reference, value⟩ := found
          obtain ⟨expanded, replaced, substituted⟩ := Word.exists_of_known? known
          rw [substituted]
          exact ⟨word, expanded, rfl, replaced, rfl⟩
      | none =>
          rw [Word.expandFirst?_of_known?_eq_none known]
          cases later : firstKnown? env (words.map Word.references) with
          | none =>
              rw [later] at ih
              exact congrArg (word :: ·) ih
          | some found =>
              rw [later] at ih
              obtain ⟨other, expanded, atNumber, replaced, substituted⟩ := ih
              exact ⟨other, expanded, atNumber, replaced, congrArg (word :: ·) substituted⟩

/-- Substitution by numbers and offsets does not fail on a command laid out, and gives the command
that substitution in the parts gives. -/
theorem expandFirst?_layout (env : Environment) (command : Command) :
    command.layout.expandFirst? env = some (command.expandFirst env).layout := by
  have found := expandWords_eq env command.words
  rw [expandFirst?, Command.expandFirst, Command.layout]
  cases known : firstKnown? env (command.words.map Word.references) with
  | none =>
      rw [known] at found
      simp only [found]
      rfl
  | some first =>
      obtain ⟨number, reference, value⟩ := first
      rw [known] at found
      obtain ⟨word, expanded, atNumber, replaced, substituted⟩ := found
      simp only [Command.args, List.getElem?_map, atNumber, Option.map_some, Option.bind_eq_bind,
        Option.bind_some, replaced, substituted, Command.layout, List.map_set, Word.text_ofText,
        Word.references_ofText]
      rfl

theorem expandAll?_layout (envs : List Environment) (command : Command) :
    command.layout.expandAll? envs =
      some (envs.foldl (fun command env => command.expandFirst env) command).layout := by
  induction envs generalizing command with
  | nil => rfl
  | cons env envs ih =>
      rw [expandAll?, List.foldlM_cons, expandFirst?_layout]
      exact ih (command.expandFirst env)

/-- Nor does finding out what a command does. -/
theorem task?_layout (context : Run.Context) (command : Command) :
    command.layout.task? context = some (.ofCommand context command) := by
  have substituted := expandFirst?_layout context.env command
  have same (other : Command) : other.layout.args = other.args := rfl
  rw [task?, Local.Task.ofCommand, substituted, same]
  cases command.args with
  | nil => rfl
  | cons program args =>
      by_cases isCd : program = ['c', 'd']
      · subst isCd
        cases args <;> rfl
      by_cases isExport : program = ['e', 'x', 'p', 'o', 'r', 't']
      · subst isExport
        simp [sliceFrom?]
      simp only [List.head?_cons]
      split
      · next found => exact absurd (Option.some.inj found) isCd
      · next found => exact absurd (Option.some.inj found) isExport
      · split
        · next found => exact absurd (List.cons.inj found).1 isCd
        · next found => exact absurd (List.cons.inj found).1 isExport
        · rfl

end Layout

/-! ## Commands of a line -/

namespace Command

/-- A command that has a program and refers to variables by names. -/
structure IsProper (command : Command) : Prop where
  nonempty : command.words ≠ []
  named : ∀ word ∈ command.words, word.IsNamed

variable {command : Command}

/-- Substitution leaves no word out and makes no new reference. -/
theorem IsProper.expandFirst (proper : command.IsProper) (env : Environment) :
    (command.expandFirst env).IsProper := by
  have found := Layout.expandWords_eq env command.words
  rw [Command.expandFirst]
  split at found
  · rw [found]
    exact proper
  · next number _ _ _ =>
      obtain ⟨word, expanded, -, -, substituted⟩ := found
      rw [substituted]
      refine ⟨by simpa using proper.nonempty, fun other member => ?_⟩
      rcases List.mem_or_eq_of_mem_set member with kept | rfl
      · exact proper.named other kept
      · exact Word.isNamed_ofText expanded

theorem IsProper.expandAll (proper : command.IsProper) (envs : List Environment) :
    (envs.foldl (fun command env => command.expandFirst env) command).IsProper := by
  induction envs generalizing command with
  | nil => exact proper
  | cons env envs ih => exact ih (proper.expandFirst env)

theorem IsProper.length_args (proper : command.IsProper) : 1 ≤ command.layout.args.length := by
  rw [layout, args, List.length_map]
  exact List.length_pos_iff.mpr proper.nonempty

theorem IsProper.isSound (proper : command.IsProper) : command.layout.IsSound := by
  rw [Layout.IsSound, layout, args, List.forall₂_map_left_iff, List.forall₂_map_right_iff,
    List.forall₂_same]
  exact fun word member => Word.marks_references (proper.named word member)

end Command

/-- Every line that can be split has a stage, every stage of it a program, and the first reads no
stage before it. After any rounds of substitution the references that are left stand in their words
where they say. No number and no offset is out of range, neither in these rounds nor when a stage is
started behind them, and substitution by place gives what substitution in the parts gives. -/
theorem references_stay_in_place {line : Text} {stages : Pipeline}
    (splits : Pipeline.split line = .ok stages) :
    1 ≤ stages.length ∧ (∀ first ∈ stages.head?, first.readsPrevious = false) ∧
      ∀ stage ∈ stages, ∀ envs : List Environment,
        let expanded := envs.foldl (fun command env => command.expandFirst env) stage.command
        1 ≤ expanded.layout.args.length ∧ expanded.layout.IsSound ∧
          stage.command.layout.expandAll? envs = some expanded.layout ∧
          ∀ context, expanded.layout.task? context = some (.ofCommand context expanded) := by
  obtain ⟨first, later, rfl, independent⟩ := Pipeline.exists_first_of_split splits
  refine ⟨Nat.le_add_left 1 later.length, ?_, ?_⟩
  · rintro _ ⟨⟩
    exact independent
  · intro stage member envs expanded
    have proper : stage.command.IsProper :=
      ⟨Pipeline.words_ne_nil_of_split splits stage member,
        Pipeline.isNamed_of_split splits stage member⟩
    have kept := proper.expandAll envs
    exact ⟨kept.length_args, kept.isSound, Layout.expandAll?_layout envs stage.command,
      fun context => Layout.task?_layout context expanded⟩

/-- The offsets of references behind a letter of two bytes, before and after one of them is
replaced. -/
theorem accented_word_stays_in_place :
    let echo : Stage :=
      ⟨⟨[.ofText "echo".toList,
        [.literal 'é', .reference ['a'] false, .reference ['b'] true]]⟩, false⟩
    let cat : Stage := ⟨.ofTexts ["cat".toList], true⟩
    let known : Environment := [(['b'], "ü".toList)]
    Pipeline.split "echo é\"$a\"$\x7bb\x7d | cat".toList = .ok [echo, cat] ∧
      echo.command.layout =
        ⟨["echo".toList, "é$a$\x7bb\x7d".toList], [[], [⟨['a'], 2, 4⟩, ⟨['b'], 4, 8⟩]]⟩ ∧
      echo.command.layout.IsSound ∧
      echo.command.layout.expandAll? [[], known] =
        some ⟨["echo".toList, "é$aü".toList], [[], []]⟩ := by
  intro echo cat known
  have splits : Pipeline.split "echo é\"$a\"$\x7bb\x7d | cat".toList = .ok [echo, cat] := by
    decide +kernel
  obtain ⟨-, -, ofStage⟩ := references_stay_in_place splits
  have member : echo ∈ [echo, cat] := List.mem_cons_self
  obtain ⟨-, sound, -, -⟩ := ofStage echo member []
  obtain ⟨-, -, replaced, -⟩ := ofStage echo member [[], known]
  refine ⟨splits, ?_, sound, replaced.trans ?_⟩ <;> decide +kernel

end Errand.Shell
