/-
# Round after round of substitution

One round of substitution puts one value into one word, and the next round looks at all words
again. What many rounds come to is told by the words as they were before the first: the words
that refer to a known variable are taken in order, one a round, and each has its first such
reference replaced. A value is literal text from then on, whatever it spells, so no round and no
environment gets to see a reference in it. When no such word is left, further rounds change
nothing.
-/
import Errand.Proofs.Shell.References
import Mathlib.Logic.Function.Iterate

namespace Errand.Shell

namespace Word

/-- Whether a word refers to a variable that the environment knows. -/
def refersTo (env : Environment) (word : Word) : Bool :=
  word.references.any fun reference => (env.get? reference.name).isSome

/-- A word reads `text` once the first reference to a known variable has given way to the value,
with all else in its place. -/
def Becomes (env : Environment) (word : Word) (text : Text) : Prop :=
  ∃ passed reference others, word.references = passed ++ reference :: others ∧
    (∀ other ∈ passed, env.get? other.name = none) ∧
    ∃ value before part behind, env.get? reference.name = some value ∧
      word.text = before ++ part ++ behind ∧ Utf8.size before = reference.start ∧
      Utf8.size (before ++ part) = reference.stop ∧ text = before ++ value ++ behind

theorem refersTo_ofText (env : Environment) (text : Text) : refersTo env (ofText text) = false := by
  rw [refersTo, references_ofText, List.any_nil]

theorem refersTo_of_expandFirst? {env : Environment} {word expanded : Word}
    (substituted : word.expandFirst? env = some expanded) : word.refersTo env = true := by
  by_contra refersToNone
  have unknown : ∀ reference ∈ word.references, env.get? reference.name = none := by
    simpa [refersTo] using refersToNone
  rw [expandFirst?_of_unknown unknown] at substituted
  cases substituted

/-- A word that refers to a known variable becomes another one, which is literal text. -/
theorem exists_of_refersTo {env : Environment} {word : Word} (refers : word.refersTo env = true) :
    ∃ text, word.Becomes env text ∧ word.expandFirst? env = some (ofText text) := by
  cases found : known? env word.references with
  | none =>
      obtain ⟨reference, member, known⟩ := List.any_eq_true.mp refers
      rw [known?, List.findSome?_eq_none_iff] at found
      have unknown := Option.map_eq_none_iff.mp (found reference member)
      rw [unknown] at known
      cases known
  | some first =>
      obtain ⟨reference, value⟩ := first
      obtain ⟨before, part, behind, whole, starts, stops, expanded⟩ := replaces_of_known? found
      obtain ⟨passed, other, others, listed, here, unknown⟩ := List.findSome?_eq_some_iff.mp found
      obtain ⟨_, known, same⟩ := Option.map_eq_some_iff.mp here
      cases same
      rw [Nat.zero_add] at starts
      refine ⟨before ++ value ++ behind, ⟨passed, reference, others, listed, ?_, value, before,
        part, behind, known, whole, starts.symm, ?_, rfl⟩, expanded⟩
      · exact fun earlier member => Option.map_eq_none_iff.mp (unknown earlier member)
      · rw [Utf8.size_append, stops, starts]

theorem expandFirst?_eq_none_iff {env : Environment} {word : Word} :
    word.expandFirst? env = none ↔ word.refersTo env = false := by
  constructor
  · intro unchanged
    by_contra refers
    obtain ⟨text, -, substituted⟩ := exists_of_refersTo (Bool.not_eq_false _ ▸ refers)
    rw [unchanged] at substituted
    cases substituted
  · intro refersToNone
    cases substituted : word.expandFirst? env with
    | none => rfl
    | some expanded =>
        rw [refersTo_of_expandFirst? substituted] at refersToNone
        cases refersToNone

end Word

namespace Command

variable (env : Environment)

/-- The rounds pass over a word that refers to nothing known. -/
theorem iterate_expandWords_cons {word : Word} (unchanged : word.expandFirst? env = none)
    (rounds : Nat) (words : List Word) :
    (expandWords env)^[rounds] (word :: words) = word :: (expandWords env)^[rounds] words := by
  induction rounds generalizing words with
  | zero => rfl
  | succ rounds ih =>
      rw [Function.iterate_succ_apply, Function.iterate_succ_apply, expandWords, unchanged]
      exact ih (expandWords env words)

/-- Behind one more word in front the numbers of the words are one greater. -/
theorem succ_mem_take_findIdxs {p : Word → Bool} {words : List Word} {count number : Nat} :
    number + 1 ∈ (words.findIdxs p 1).take count ↔ number ∈ (words.findIdxs p).take count := by
  rw [List.findIdxs_start, ← List.map_take, List.mem_map]
  simp only [Nat.add_right_cancel_iff, exists_eq_right]

theorem zero_notMem_take_findIdxs {p : Word → Bool} {words : List Word} {count : Nat} :
    0 ∉ (words.findIdxs p 1).take count := by
  rw [List.findIdxs_start, ← List.map_take, List.mem_map]
  rintro ⟨number, -, same⟩
  exact Nat.succ_ne_zero number same

/-- After some rounds the first words that refer to a known variable have been substituted, as
many as there were rounds, and all others are as they were. The induction is on the words: a round
that changes the first one is a round less for the others. -/
theorem getElem?_iterate_expandWords (rounds number : Nat) (words : List Word) :
    ((expandWords env)^[rounds] words)[number]? =
      if number ∈ (words.findIdxs (Word.refersTo env)).take rounds
      then words[number]?.bind (Word.expandFirst? env) else words[number]? := by
  induction words generalizing rounds number with
  | nil =>
      have unchanged : (expandWords env)^[rounds] [] = [] := Function.iterate_fixed rfl rounds
      simp [unchanged]
  | cons word words ih =>
      cases substituted : word.expandFirst? env with
      | none =>
          have refers := Word.expandFirst?_eq_none_iff.mp substituted
          rw [iterate_expandWords_cons env substituted, List.findIdxs_cons, refers]
          cases number with
          | zero => simp [zero_notMem_take_findIdxs]
          | succ number => simpa [succ_mem_take_findIdxs] using ih rounds number
      | some expanded =>
          have refers := Word.refersTo_of_expandFirst? substituted
          obtain ⟨text, -, literal⟩ := Word.exists_of_refersTo refers
          obtain rfl : expanded = Word.ofText text :=
            Option.some.inj (substituted.symm.trans literal)
          have later : (Word.ofText text).expandFirst? env = none :=
            Word.expandFirst?_eq_none_iff.mpr (Word.refersTo_ofText env text)
          rw [List.findIdxs_cons, if_pos refers]
          cases rounds with
          | zero => simp
          | succ rounds =>
              rw [Function.iterate_succ_apply, expandWords, substituted,
                iterate_expandWords_cons env later, List.take_succ_cons]
              cases number with
              | zero => simp [substituted]
              | succ number => simpa [succ_mem_take_findIdxs] using ih rounds number

theorem words_iterate_expandFirst (rounds : Nat) (command : Command) :
    ((expandFirst env)^[rounds] command).words = (expandWords env)^[rounds] command.words := by
  induction rounds generalizing command with
  | zero => rfl
  | succ rounds ih => rw [Function.iterate_succ_apply, Function.iterate_succ_apply, ih, expandFirst]

/-- Literal text stays where it is, whatever is substituted in other words. -/
theorem getElem?_foldl_expandFirst {command : Command} {number : Nat} {text : Text}
    (literal : command.words[number]? = some (Word.ofText text)) (envs : List Environment) :
    (envs.foldl (fun command env => command.expandFirst env) command).words[number]? =
      some (Word.ofText text) := by
  induction envs generalizing command with
  | nil => exact literal
  | cons env envs ih =>
      refine ih ?_
      have once := getElem?_iterate_expandWords env 1 number command.words
      rw [Function.iterate_one, literal] at once
      show (expandWords env command.words)[number]? = _
      rw [once, ite_eq_right_iff]
      intro taken
      obtain ⟨inRange, refers⟩ := List.mem_findIdxs_iff_exists_getElem_pos.mp
        (List.mem_of_mem_take taken)
      rw [List.getElem?_eq_getElem inRange] at literal
      rw [Option.some.inj literal, Word.refersTo_ofText] at refers
      cases refers

end Command

/-- After some rounds of substitution the words that differ from what they were are the first of
those that refer to a known variable, as many as there were rounds. Each of them is literal text
with one value in it, which no later round looks into under any environment. Once there is no such
word left, more rounds change nothing. -/
theorem rounds_expand_known_words (command : Command) (env : Environment) (rounds : Nat) :
    let known := command.words.findIdxs (Word.refersTo env)
    let expanded := (Command.expandFirst env)^[rounds] command
    (∀ number, expanded.words[number]? ≠ command.words[number]? ↔ number ∈ known.take rounds) ∧
      (∀ number ∈ known.take rounds, ∃ word text, command.words[number]? = some word ∧
        word.Becomes env text ∧ ∀ envs : List Environment,
          (envs.foldl (fun command env => command.expandFirst env) expanded).words[number]? =
            some (Word.ofText text)) ∧
      (known.length ≤ rounds → expanded = (Command.expandFirst env)^[known.length] command) := by
  intro known expanded
  have each (number : Nat) : expanded.words[number]? =
      if number ∈ known.take rounds then command.words[number]?.bind (Word.expandFirst? env)
      else command.words[number]? := by
    rw [Command.words_iterate_expandFirst]
    exact Command.getElem?_iterate_expandWords env rounds number command.words
  have ofKnown {number : Nat} (taken : number ∈ known.take rounds) : ∃ word text,
      command.words[number]? = some word ∧ word.refersTo env = true ∧ word.Becomes env text ∧
        expanded.words[number]? = some (Word.ofText text) := by
    obtain ⟨inRange, refers⟩ := List.mem_findIdxs_iff_exists_getElem_pos.mp
      (List.mem_of_mem_take taken)
    obtain ⟨text, becomes, substituted⟩ := Word.exists_of_refersTo refers
    have here := List.getElem?_eq_getElem inRange
    refine ⟨command.words[number], text, here, refers, becomes, ?_⟩
    rw [each, if_pos taken, here, Option.bind_some, substituted]
  refine ⟨fun number => ⟨?_, ?_⟩, ?_, ?_⟩
  · intro differs
    by_contra untaken
    exact differs ((each number).trans (if_neg untaken))
  · intro taken same
    obtain ⟨word, text, here, refers, -, there⟩ := ofKnown taken
    obtain rfl : word = Word.ofText text :=
      Option.some.inj (here.symm.trans (same.symm.trans there))
    rw [Word.refersTo_ofText] at refers
    cases refers
  · intro number taken
    obtain ⟨word, text, here, -, becomes, there⟩ := ofKnown taken
    exact ⟨word, text, here, becomes, Command.getElem?_foldl_expandFirst there⟩
  · intro enough
    have sameWords : expanded.words = ((Command.expandFirst env)^[known.length] command).words := by
      apply List.ext_getElem?
      intro number
      rw [each, List.take_of_length_le enough, Command.words_iterate_expandFirst,
        Command.getElem?_iterate_expandWords, List.take_length]
    exact congrArg Command.mk sameWords

/-- Three words that refer to something known, one of them twice and by a value that spells a
reference itself. -/
theorem two_rounds_expand_two_words :
    let line := "echo $x $a$b '$b' \"$\x7bb\x7dc\" $b".toList
    let env : Environment := [(['a'], "$b".toList), (['b'], "1".toList)]
    let echo : Command := ⟨[.ofText "echo".toList, [.reference ['x'] false],
      [.reference ['a'] false, .reference ['b'] false], .ofText "$b".toList,
      [.reference ['b'] true, .literal 'c'], [.reference ['b'] false]]⟩
    let known := echo.words.findIdxs (Word.refersTo env)
    let expanded := (Command.expandFirst env)^[2] echo
    Pipeline.split line = .ok [⟨echo, false⟩] ∧ known = [2, 4, 5] ∧
      expanded.args =
        ["echo".toList, "$x".toList, "$b$b".toList, "$b".toList, "1c".toList, "$b".toList] ∧
      expanded.words[5]? = echo.words[5]? ∧
      (∃ word text, echo.words[2]? = some word ∧ word.Becomes env text ∧
        ∀ envs : List Environment,
          (envs.foldl (fun command env => command.expandFirst env) expanded).words[2]? =
            some (Word.ofText text)) ∧
      (Command.expandFirst env)^[7] echo = (Command.expandFirst env)^[3] echo := by
  intro line env echo known expanded
  have numbers : known = [2, 4, 5] := by decide +kernel
  obtain ⟨changed, becomes, -⟩ := rounds_expand_known_words echo env 2
  obtain ⟨-, -, noMore⟩ := rounds_expand_known_words echo env 7
  have third : 2 ∈ known.take 2 := by rw [numbers]; decide
  have notLast : 5 ∉ known.take 2 := by rw [numbers]; decide
  have enough : known.length ≤ 7 := by rw [numbers]; decide
  refine ⟨by decide +kernel, numbers, by decide +kernel, ?_, becomes 2 third, ?_⟩
  · exact not_ne_iff.mp fun differs => notLast ((changed 5).mp differs)
  · have count : known.length = 3 := congrArg List.length numbers
    rw [← count]
    exact noMore enough

end Errand.Shell
