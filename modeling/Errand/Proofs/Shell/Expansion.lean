/-
# Words that substitution leaves alone

Substitution looks for references to known variables and changes nothing else. A word that
refers to none is therefore left as it is, and so is a command of such words. A word without a
reference is left as it is under every environment.
-/
import Errand.Shell.Command

namespace Errand.Shell

namespace Word

@[simp] theorem text_ofText (text : Text) : Word.text (ofText text) = text := by
  induction text with
  | nil => rfl
  | cons c text ih => exact congrArg (c :: ·) ih

/-- A word has no reference exactly if none of its parts is one, wherever it begins. -/
theorem referencesFrom_eq_nil_iff (start : Nat) (word : Word) :
    referencesFrom start word = [] ↔ ∀ part ∈ word, part.name? = none := by
  induction word generalizing start with
  | nil => simp [referencesFrom]
  | cons part word ih =>
      cases part with
      | literal c =>
          rw [referencesFrom, ih, List.forall_mem_cons]
          exact ⟨fun unnamed => ⟨rfl, unnamed⟩, And.right⟩
      | reference name braced => simp [referencesFrom, Part.name?]

theorem references_ofText (text : Text) : references (ofText text) = [] := by
  refine (referencesFrom_eq_nil_iff 0 _).mpr fun part literal => ?_
  obtain ⟨c, -, rfl⟩ := List.mem_map.mp literal
  rfl

/-- A word refers to no known variable exactly if none of its parts does. -/
theorem unknown_iff (env : Environment) (start : Nat) (word : Word) :
    (∀ reference ∈ referencesFrom start word, env.get? reference.name = none) ↔
      ∀ part ∈ word, part.name?.bind env.get? = none := by
  induction word generalizing start with
  | nil => simp [referencesFrom]
  | cons part word ih =>
      cases part with
      | literal c =>
          rw [referencesFrom, ih, List.forall_mem_cons]
          exact ⟨fun unknown => ⟨rfl, unknown⟩, And.right⟩
      | reference name braced =>
          rw [referencesFrom, List.forall_mem_cons, List.forall_mem_cons, ih]
          rfl

/-- Nothing is put into a word that refers to no known variable. -/
theorem expandFirst?_of_unknown {word : Word} {env : Environment}
    (unknown : ∀ reference ∈ word.references, env.get? reference.name = none) :
    word.expandFirst? env = none := by
  have unnamed := (unknown_iff env 0 word).mp unknown
  clear unknown
  induction word with
  | nil => rfl
  | cons part word ih =>
      obtain ⟨here, behind⟩ := List.forall_mem_cons.mp unnamed
      rw [expandFirst?, here, ih behind]
      rfl

/-- A word that is a reference to a known variable becomes its value, as literal text. -/
theorem expandFirst?_reference {env : Environment} {name value : Text}
    (known : env.get? name = some value) (braced : Bool) :
    expandFirst? env [.reference name braced] = some (ofText value) := by
  rw [expandFirst?, Part.name?, Option.bind_some, known]
  simp [text]

end Word

/-- Substitution passes over a word of literal text. -/
theorem Command.expandWords_ofText (env : Environment) (text : Text) (words : List Word) :
    expandWords env (Word.ofText text :: words) =
      Word.ofText text :: expandWords env words := by
  have unknown : ∀ reference ∈ (Word.ofText text).references, env.get? reference.name = none := by
    rw [Word.references_ofText]
    exact List.forall_mem_nil _
  rw [expandWords, Word.expandFirst?_of_unknown unknown]

@[simp] theorem Command.args_ofTexts (texts : List Text) : (ofTexts texts).args = texts := by
  have read : Word.text ∘ Word.ofText = id := funext Word.text_ofText
  rw [args, ofTexts, List.map_map, read, List.map_id]

theorem Command.references_of_mem_ofTexts {texts : List Text} {word : Word}
    (member : word ∈ (ofTexts texts).words) : word.references = [] := by
  obtain ⟨text, -, rfl⟩ := List.mem_map.mp member
  exact Word.references_ofText text

/-- Substitution leaves a command of words that refer to no known variable as it is. -/
theorem Command.expandFirst_of_unknown {command : Command} {env : Environment}
    (unknown : ∀ word ∈ command.words, ∀ reference ∈ word.references,
      env.get? reference.name = none) :
    command.expandFirst env = command := by
  have unchanged : expandWords env command.words = command.words := by
    generalize command.words = words at unknown
    induction words with
    | nil => rfl
    | cons word words ih =>
        obtain ⟨here, behind⟩ := List.forall_mem_cons.mp unknown
        rw [expandWords, Word.expandFirst?_of_unknown here]
        exact congrArg (word :: ·) (ih behind)
  rw [expandFirst, unchanged]

/-- Substitution leaves a command of words that refer to nothing as it is. -/
theorem Command.expandFirst_of_references {command : Command} (env : Environment)
    (unreferring : ∀ word ∈ command.words, word.references = []) :
    command.expandFirst env = command := by
  refine expandFirst_of_unknown fun word member => ?_
  rw [unreferring word member]
  exact List.forall_mem_nil _

end Errand.Shell
