/-
# Lines written from their arguments

A line can be written from texts instead of read into them: every argument in a style of its
own, one space between two arguments, and a space on either side of a separator. Reading
such a line gives back the commands and the arguments it was written from, whatever
characters they are made of. So a caller who quotes what it puts into a line runs what it
meant to run and nothing else.
-/
import Errand.Proofs.Shell.Quoting
import Errand.Proofs.Shell.Splitting

namespace Errand.Shell

/-- An argument and the style it is written in. Without quotes nothing can be written for the
empty text. -/
structure Argument where
  text : Text
  style : Style
  writable : style = .escaped → text ≠ []

namespace Argument

/-- The argument as it stands in a line. -/
def write (argument : Argument) : Text := argument.style.write argument.text

/-- What becomes of the argument before it is unquoted. -/
def item (argument : Argument) : Item :=
  match argument.style.loneGlyph? argument.text with
  | some _ => .literal argument.text
  | none => .word argument.write

theorem item_ne_cut (argument : Argument) (s : Separator) : argument.item ≠ .cut s := by
  unfold item
  split <;> simp

/-- The tokens of an argument amount to its item, and no backslash is left over. -/
theorem resolve_tokens (argument : Argument) (tokens : List Token) :
    Item.resolve 0 (argument.style.tokens argument.text ++ tokens) =
      argument.item :: Item.resolve 0 tokens := by
  unfold Style.tokens item
  cases lone : argument.style.loneGlyph? argument.text with
  | none => rfl
  | some s =>
      obtain ⟨-, glyph, -⟩ := Style.eq_of_loneGlyph? lone
      rw [glyph]
      rfl

/-- The item of an argument is the next word of its stage, and the word is the argument. -/
theorem group_item (argument : Argument) (isFirst : Bool) (preceding : Option Separator)
    (words : List Word) (items : List Item) :
    Pipeline.group isFirst preceding words (argument.item :: items) =
      Pipeline.group isFirst preceding (words ++ [Word.ofText argument.text]) items := by
  unfold item
  split
  · rfl
  · rw [Pipeline.group, write, Word.unquote_write]
    rfl

end Argument

/-- A command to be written: its program and the arguments of that. -/
structure Invocation where
  program : Argument
  operands : List Argument

namespace Invocation

/-- All arguments, program first. -/
def arguments (invocation : Invocation) : List Argument :=
  invocation.program :: invocation.operands

/-- The texts of the arguments, program first. -/
def texts (invocation : Invocation) : List Text := invocation.arguments.map Argument.text

/-- The command as it stands in a line, with one space before each further argument. -/
def write (invocation : Invocation) : Text :=
  invocation.program.write ++ invocation.operands.flatMap fun operand => ' ' :: operand.write

def tokens (invocation : Invocation) : List Token :=
  invocation.arguments.flatMap fun argument => argument.style.tokens argument.text

def items (invocation : Invocation) : List Item := invocation.arguments.map Argument.item

/-- Each argument gives its own tokens. -/
theorem scansTo_write (invocation : Invocation) :
    Token.ScansTo invocation.write invocation.tokens := by
  have scans (argument : Argument) :
      Token.ScansTo argument.write (argument.style.tokens argument.text) :=
    Token.scansTo_write argument.style argument.writable
  exact (scans invocation.program).spacedAll invocation.operands fun operand _ => scans operand

/-- No escape reaches from one command into the next. -/
theorem resolve_tokens (invocation : Invocation) (tokens : List Token) :
    Item.resolve 0 (invocation.tokens ++ tokens) =
      invocation.items ++ Item.resolve 0 tokens := by
  unfold Invocation.tokens items
  induction invocation.arguments with
  | nil => rfl
  | cons argument arguments ih =>
      rw [List.flatMap_cons, List.append_assoc, argument.resolve_tokens, ih]
      rfl

/-- A line that ends with a command has no cut at its end. -/
theorem dropFinalCut_items (earlier : List Item) (invocation : Invocation) :
    Item.dropFinalCut (earlier ++ invocation.items) = earlier ++ invocation.items := by
  unfold items
  rcases List.eq_nil_or_concat invocation.arguments with empty | ⟨arguments, last, same⟩
  · cases empty
  · rw [same, List.concat_eq_append, List.map_append, ← List.append_assoc]
    exact Item.dropFinalCut_concat _ last.item_ne_cut

/-- The items of a command are further words of its stage. -/
theorem group_items (invocation : Invocation) (isFirst : Bool) (preceding : Option Separator)
    (words : List Word) (items : List Item) :
    Pipeline.group isFirst preceding words (invocation.items ++ items) =
      Pipeline.group isFirst preceding (words ++ invocation.texts.map Word.ofText) items := by
  unfold Invocation.items texts
  induction invocation.arguments generalizing words with
  | nil => rw [List.map_nil, List.map_nil, List.map_nil, List.nil_append, List.append_nil]
  | cons argument arguments ih =>
      rw [List.map_cons, List.cons_append, argument.group_item, ih, List.append_assoc]
      rfl

end Invocation

/-- A line to be written: a command, and further ones with the separators before them. -/
structure WrittenLine where
  first : Invocation
  later : List (Separator × Invocation)

namespace WrittenLine

/-- The line, with a space on either side of each separator. -/
def write (line : WrittenLine) : Text :=
  line.first.write ++ line.later.flatMap fun (s, invocation) =>
    ' ' :: (s.glyph ++ ' ' :: invocation.write)

/-- The commands in order. -/
def invocations (line : WrittenLine) : List Invocation := line.first :: line.later.map Prod.snd

/-- For each command whether a single `|` stands before it. -/
def piped (line : WrittenLine) : List Bool :=
  false :: line.later.map fun (s, _) => s == .pipe

/-- The stages that the line is written from. -/
def pipeline (line : WrittenLine) : Pipeline :=
  ⟨Command.ofTexts line.first.texts, false⟩ ::
    line.later.map fun (s, invocation) => ⟨Command.ofTexts invocation.texts, s == .pipe⟩

def tokens (line : WrittenLine) : List Token :=
  line.first.tokens ++ line.later.flatMap fun (s, invocation) =>
    .separator s :: invocation.tokens

def items (line : WrittenLine) : List Item :=
  line.first.items ++ line.later.flatMap fun (s, invocation) => .cut s :: invocation.items

theorem lex_write (line : WrittenLine) : Token.lex line.write = .ok line.tokens := by
  have scans : Token.ScansTo line.write line.tokens :=
    line.first.scansTo_write.spacedAll line.later fun (s, invocation) _ =>
      (Token.scansTo_glyph s).spaced invocation.scansTo_write
  exact scans.lex

theorem ofTokens_tokens (line : WrittenLine) : Item.ofTokens line.tokens = line.items := by
  rw [Item.ofTokens, tokens, line.first.resolve_tokens, items]
  congr 1
  induction line.later with
  | nil => rfl
  | cons link later ih =>
      obtain ⟨s, invocation⟩ := link
      rw [List.flatMap_cons, List.flatMap_cons, List.cons_append, Item.resolve,
        invocation.resolve_tokens, ih]
      rfl

theorem dropFinalCut_items (line : WrittenLine) : Item.dropFinalCut line.items = line.items := by
  unfold items
  rcases List.eq_nil_or_concat line.later with empty | ⟨earlier, ⟨s, last⟩, same⟩
  · rw [empty, List.flatMap_nil, List.append_nil]
    exact line.first.dropFinalCut_items []
  · rw [same, List.concat_eq_append, List.flatMap_append, List.flatMap_singleton]
    have ended := last.dropFinalCut_items (line.first.items ++ earlier.flatMap
      (fun (s, invocation) => .cut s :: invocation.items) ++ [.cut s])
    simpa using ended

/-- The words of a first command are a stage, and each further command is one. -/
theorem group_items (later : List (Separator × Invocation)) (isFirst : Bool)
    (preceding : Option Separator) (invocation : Invocation) :
    Pipeline.group isFirst preceding []
        (invocation.items ++ later.flatMap fun (s, next) => .cut s :: next.items) =
      .ok (⟨Command.ofTexts invocation.texts, !isFirst && preceding == some .pipe⟩ ::
        later.map fun (s, next) => ⟨Command.ofTexts next.texts, s == .pipe⟩) := by
  rw [invocation.group_items, List.nil_append]
  induction later generalizing isFirst preceding invocation with
  | nil => rfl
  | cons link later ih =>
      obtain ⟨s, next⟩ := link
      have behind := ih false (some s) next
      rw [← List.nil_append (next.texts.map Word.ofText), ← next.group_items] at behind
      have notFirst : (isFirst && (invocation.texts.map Word.ofText).isEmpty) = false :=
        Bool.and_false isFirst
      rw [List.flatMap_cons, List.cons_append, Pipeline.group, notFirst, behind]
      rfl

/-- Reading a line gives the stages that it was written from. -/
theorem split_write (line : WrittenLine) : Pipeline.split line.write = .ok line.pipeline := by
  have read : Item.dropFinalCut (Item.ofTokens line.tokens) = line.items := by
    rw [line.ofTokens_tokens, line.dropFinalCut_items]
  have grouped : Pipeline.group true none [] line.items = .ok line.pipeline :=
    group_items line.later true none line.first
  exact Pipeline.split_of_group line.lex_write read grouped

end WrittenLine

/-- Reading a line gives back, in order, the commands it was written from with exactly their
arguments. A stage reads the one before it exactly if the separator between them is `|`. No
argument refers to a variable, so substitution leaves every stage as it is. -/
theorem split_written (line : WrittenLine) :
    ∃ stages, Pipeline.split line.write = .ok stages ∧
      stages.map Stage.args = line.invocations.map Invocation.texts ∧
      stages.map Stage.readsPrevious = line.piped ∧
      ∀ stage ∈ stages, (∀ word ∈ stage.command.words, word.references = []) ∧
        ∀ env, stage.command.expandFirst env = stage.command := by
  refine ⟨line.pipeline, line.split_write, ?_, ?_, ?_⟩
  · simp [WrittenLine.pipeline, WrittenLine.invocations, Stage.args, Function.comp_def]
  · simp [WrittenLine.pipeline, WrittenLine.piped, Function.comp_def]
  · intro stage member
    have plain : ∃ texts, stage.command = Command.ofTexts texts := by
      rcases List.mem_cons.mp member with rfl | member
      · exact ⟨line.first.texts, rfl⟩
      · obtain ⟨⟨s, invocation⟩, -, rfl⟩ := List.mem_map.mp member
        exact ⟨invocation.texts, rfl⟩
    obtain ⟨texts, same⟩ := plain
    have unreferring : ∀ word ∈ stage.command.words, word.references = [] := by
      intro word inStage
      rw [same] at inStage
      exact Command.references_of_mem_ofTexts inStage
    exact ⟨unreferring, fun env => Command.expandFirst_of_references env unreferring⟩

end Errand.Shell
