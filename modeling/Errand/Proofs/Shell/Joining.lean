/-
# Lines joined by separators

Two lines with a separator and blanks between them are split each on its own: nothing that is
remembered inside the first line reaches the second. The scan is back at its start behind the
first blank, no backslash is left over to take a separator, and the words collected so far
close their stage. Only whether a stage reads the one before it is settled at the seam.

The first line must leave the separator alone, so it ends neither in a comment nor behind a
backslash, and it holds a token other than a separator. The second line must not begin with a
separator, which would take the place of the one at the seam.
-/
import Errand.Proofs.Shell.Place
import Errand.Proofs.Shell.Splitting

namespace Errand.Shell

/-! ## A blank keeps what stands before it -/

/-- Two characters tell which separator a text begins with. -/
theorem Separator.atStart?_cons_cons (first second : Char) (text : Text) :
    atStart? (first :: second :: text) =
      if first = '|' then if second = '|' then some .or else some .pipe
      else if first = '&' ∧ second = '&' then some .and
      else if first = ';' then some .semi else none := by
  by_cases isPipe : first = '|'
  · subst isPipe
    by_cases again : second = '|'
    · subst again
      rfl
    · rw [if_pos rfl, if_neg again, atStart?]
      rintro later same
      exact again (List.cons.inj same).1
  · unfold atStart?
    split <;> simp_all

/-- What begins a text does not change when a character of no separator and more follow the
text. -/
theorem Separator.atStart?_append (text : Text) {c : Char} (rest : Text)
    (noGlyph : c ≠ '|' ∧ c ≠ '&' ∧ c ≠ ';') : atStart? (text ++ c :: rest) = atStart? text := by
  obtain ⟨notPipe, notAmpersand, notSemi⟩ := noGlyph
  match text with
  | [] => simp [atStart?, notPipe, notAmpersand, notSemi]
  | [first] =>
      unfold atStart?
      split <;> simp_all
  | first :: second :: text =>
      rw [List.cons_append, List.cons_append, atStart?_cons_cons, atStart?_cons_cons]

theorem Separator.atStart?_append_blank (text : Text) {c : Char} (rest : Text)
    (white : isBlank c = true) : atStart? (text ++ c :: rest) = atStart? text :=
  have apart (other : Char) (solid : isBlank other = false) : c ≠ other :=
    Token.ne_of_isBlank white solid
  atStart?_append text rest ⟨apart '|' (by decide), apart '&' (by decide), apart ';' (by decide)⟩

/-- A separator stands free whether a blank or nothing follows it. -/
theorem freeStanding_append_blank (text : Text) {c : Char} (rest : Text)
    (white : isBlank c = true) : freeStanding (text ++ c :: rest) = freeStanding text := by
  rw [freeStanding, freeStanding, Separator.atStart?_append_blank text rest white]
  cases starts : Separator.atStart? text with
  | none => rfl
  | some s =>
      obtain ⟨behind, rfl⟩ := Separator.exists_of_atStart? starts
      simp only [List.append_assoc, List.drop_left]
      cases behind with
      | nil => exact white
      | cons first behind => rfl

/-- More behind a text frees no separator at its beginning. -/
theorem freeStanding_append_eq_false {text more : Text}
    (unchanged : Separator.atStart? (text ++ more) = Separator.atStart? text)
    (bound : freeStanding text = false) : freeStanding (text ++ more) = false := by
  rw [freeStanding, unchanged]
  rw [freeStanding] at bound
  cases starts : Separator.atStart? text with
  | none => rfl
  | some s =>
      obtain ⟨behind, rfl⟩ := Separator.exists_of_atStart? starts
      simp only [starts, List.drop_left] at bound
      simp only [List.append_assoc, List.drop_left]
      cases behind with
      | nil => cases bound
      | cons first behind => exact bound

namespace Token

variable {c : Char} {rest : Text} {tokens more : List Token} {ending : LineEnd}

/-- What is read to a bare end is read the same when a blank and more follow. Only a separator, or a
backslash before one, looks at what stands behind it. -/
theorem Scanned.append_blank {quoting : Quoting} {begun : Option Text} {text : Text}
    {bareEnd : LineEnd} (scanned : Scanned quoting begun text tokens bareEnd)
    (isBare : bareEnd = .bare) (white : isBlank c = true)
    (behind : Scanned .bare none rest more ending) :
    Scanned quoting begun (text ++ c :: rest) (tokens ++ more) ending := by
  induction scanned with
  | finish begun => exact .blank white behind
  | comment | lastBackslash => cases isBare
  | blank whiteToo later ih =>
      rw [List.append_assoc]
      exact .blank whiteToo (ih isBare)
  | glyph starts later ih =>
      rw [List.append_assoc, List.append_assoc]
      refine .glyph ?_ (ih isBare)
      rw [← List.append_assoc, Separator.atStart?_append_blank _ rest white, starts]
  | @escapedGlyph s text tokens bareEnd ends later ih =>
      rw [List.cons_append, List.append_assoc]
      refine .escapedGlyph ?_ (ih isBare)
      cases text with
      | nil => exact white
      | cons first text => exact ends
  | escaped bound later ih =>
      refine .escaped (fun empty => ?_) (ih isBare)
      exact (freeStanding_append_blank (_ :: _) rest white).trans (bound empty)
  | plain isPlain goesOn later ih =>
      refine .plain ⟨isPlain.solid, isPlain.unescaping, isPlain.unquoting, ?_⟩ goesOn (ih isBare)
      exact (Separator.atStart?_append_blank (_ :: _) rest white).trans isPlain.uncut
  | openSingle later ih => exact .openSingle (ih isBare)
  | openDouble later ih => exact .openDouble (ih isBare)
  | closeSingle later ih => exact .closeSingle (ih isBare)
  | closeDouble later ih => exact .closeDouble (ih isBare)
  | inSingle other later ih => exact .inSingle other (ih isBare)
  | inDouble other later ih => exact .inDouble other (ih isBare)
  | escapedInDouble later ih => exact .escapedInDouble (ih isBare)

/-- A token that is no word is not the word that has begun. -/
theorem exists_of_close_append {begun : Option Text} {earlier later : List Token} {token : Token}
    (noWord : ∀ raw, token ≠ .word raw) (same : close begun ++ tokens = earlier ++ token :: later) :
    ∃ more, earlier = close begun ++ more ∧ tokens = more ++ token :: later := by
  cases begun with
  | none => exact ⟨earlier, rfl, same⟩
  | some raw =>
      cases earlier with
      | nil => exact absurd (List.cons.inj same).1.symm (noWord raw)
      | cons first earlier =>
          obtain ⟨rfl, rest⟩ := List.cons.inj same
          exact ⟨earlier, rfl, rest⟩

/-- The tokens at a line end that wait for something that does not come. -/
def LineEnd.waiting : LineEnd → List Token
  | .bare => []
  | .comment => []
  | .backslash => [.backslash]

/-- Every backslash among the tokens has its separator, unless one ends the line. -/
theorem Scanned.exists_settled {quoting : Quoting} {begun : Option Text} {text : Text}
    (scanned : Scanned quoting begun text tokens ending) :
    ∃ settled, Item.Settled settled ∧ tokens = settled ++ ending.waiting := by
  induction scanned with
  | finish begun => exact ⟨close begun, Item.settled_close begun, (List.append_nil _).symm⟩
  | comment => exact ⟨[], .nil, rfl⟩
  | @blank c begun rest tokens ending white later ih =>
      obtain ⟨settled, isSettled, rfl⟩ := ih
      exact ⟨_, (Item.settled_close begun).append isSettled, (List.append_assoc _ _ _).symm⟩
  | @glyph s begun rest tokens ending starts later ih =>
      obtain ⟨settled, isSettled, rfl⟩ := ih
      exact ⟨_, (Item.settled_close begun).append (.separator s isSettled),
        (List.append_assoc _ (_ :: _) _).symm⟩
  | lastBackslash begun => exact ⟨_, Item.settled_close begun, rfl⟩
  | @escapedGlyph s rest tokens ending ends later ih =>
      obtain ⟨settled, isSettled, rfl⟩ := ih
      exact ⟨_, .escaped s isSettled, rfl⟩
  | escaped _ _ ih | plain _ _ _ ih | openSingle _ ih | openDouble _ ih | closeSingle _ ih
  | closeDouble _ ih | inSingle _ _ ih | inDouble _ _ ih | escapedInDouble _ ih => exact ih

/-- Tokens of a line that does not end with a backslash are settled. -/
theorem Scanned.settled {quoting : Quoting} {begun : Option Text} {text : Text}
    (scanned : Scanned quoting begun text tokens ending) (finished : ending ≠ .backslash) :
    Item.Settled tokens := by
  obtain ⟨settled, isSettled, rfl⟩ := scanned.exists_settled
  cases ending with
  | bare | comment => rwa [LineEnd.waiting, List.append_nil]
  | backslash => exact absurd rfl finished

end Token

namespace Item

/-- A backslash that waits for its separator keeps the first item from being a cut. -/
theorem exists_of_resolve_succ (escapes : Nat) (tokens : List Token) :
    ∃ item items, resolve (escapes + 1) tokens = item :: items ∧ ∀ s, item ≠ .cut s := by
  induction tokens generalizing escapes with
  | nil => exact ⟨_, _, rfl, by simp⟩
  | cons token tokens ih =>
      cases token with
      | word raw => exact ⟨_, _, rfl, by simp⟩
      | separator s => exact ⟨_, _, rfl, by simp⟩
      | backslash => exact ih (escapes + 1)

/-- Tokens that do not begin with a separator give items that do not begin with a cut. -/
theorem exists_of_ofTokens_cons {first : Token} (more : List Token)
    (noSeparator : ∀ s, first ≠ .separator s) :
    ∃ item items, ofTokens (first :: more) = item :: items ∧ ∀ s, item ≠ .cut s := by
  cases first with
  | word raw => exact ⟨_, _, rfl, by simp⟩
  | separator s => exact absurd rfl (noSeparator s)
  | backslash => exact exists_of_resolve_succ 0 more

/-- Settled tokens that are not all separators hold something other than cuts. -/
theorem Settled.exists_mem_resolve {tokens : List Token} (settled : Settled tokens)
    {token : Token} (member : token ∈ tokens) (noSeparator : ∀ s, token ≠ .separator s) :
    ∃ item ∈ resolve 0 tokens, ∀ s, item ≠ .cut s := by
  induction settled with
  | nil => cases member
  | word raw later ih => exact ⟨_, List.mem_cons_self, by simp⟩
  | separator s later ih =>
      rcases List.mem_cons.mp member with rfl | behind
      · exact absurd rfl (noSeparator s)
      · obtain ⟨item, found, noCut⟩ := ih behind
        exact ⟨item, List.mem_cons_of_mem _ found, noCut⟩
  | escaped s later ih => exact ⟨_, List.mem_cons_self, by simp⟩

end Item

namespace Pipeline

/-- Stages behind a separator: the first one reads what comes before if that is a pipe. -/
def behind (s : Separator) (stages : List Stage) : List Stage :=
  stages.modifyHead fun stage => { stage with readsPrevious := s == .pipe }

/-- Once a word is collected, only the first stage knows which separator came before. -/
theorem group_behind (s : Separator) {collected : List Word} (some : collected ≠ [])
    (items : List Item) :
    group false (.some s) collected items = (group true none collected items).map (behind s) := by
  have notEmpty : collected.isEmpty = false := by simpa using some
  have closes : closeGroup false (.some s) collected =
      behind s (closeGroup true none collected) := by
    simp [closeGroup, notEmpty, behind]
  induction items generalizing collected with
  | nil => rw [group, group, closes]; rfl
  | cons item items ih =>
      cases item with
      | word raw =>
          rw [group, group]
          cases Word.unquote raw with
          | error fault => rfl
          | ok word => exact ih (by simp) (by simp) (by simp [closeGroup, behind])
      | literal text =>
          rw [group, group]
          exact ih (by simp) (by simp) (by simp [closeGroup, behind])
      | cut t =>
          rw [group, group, notEmpty, Bool.false_and, Bool.true_and]
          cases group false (.some t) [] items with
          | error fault => rfl
          | ok later =>
              simp only [bind, Except.bind, pure, Except.pure, Except.map, closes]
              simp [closeGroup, notEmpty, behind]

/-- Items that do not begin with a cut are grouped behind a separator as they are alone. -/
theorem group_behind_of_head (s : Separator) {item : Item} (items : List Item)
    (noCut : ∀ t, item ≠ .cut t) :
    group false (.some s) [] (item :: items) =
      (group true none [] (item :: items)).map (behind s) := by
  cases item with
  | word raw =>
      rw [group, group]
      cases Word.unquote raw with
      | error fault => rfl
      | ok word => exact group_behind s (by simp) items
  | literal text =>
      rw [group, group]
      exact group_behind s (by simp) items
  | cut t => exact absurd rfl (noCut t)

end Pipeline

/-! ## The seam -/

/-- Two lines with a separator and two spaces between them. -/
def joined (line : Text) (s : Separator) (other : Text) : Text :=
  line ++ ' ' :: (s.glyph ++ ' ' :: other)

/-- A line with a token that is not a separator. -/
def HoldsCommand (line : Text) : Prop :=
  ∃ tokens, Token.lex line = .ok tokens ∧ ∃ token ∈ tokens, ∀ s, token ≠ .separator s

/-- A line whose first token is not a separator. -/
def BeginsWithCommand (line : Text) : Prop :=
  ∃ first more, Token.lex line = .ok (first :: more) ∧ ∀ s, first ≠ .separator s

theorem BeginsWithCommand.holdsCommand {line : Text} (begins : BeginsWithCommand line) :
    HoldsCommand line := by
  obtain ⟨first, more, lexed, noSeparator⟩ := begins
  exact ⟨first :: more, lexed, first, List.mem_cons_self, noSeparator⟩

section Seam

variable {line other : Text} (s : Separator)

/-- The tokens on either side of the seam are those of the two lines. -/
theorem lex_joined {tokens more : List Token} (endsOpen : EndsOpen line)
    (lexed : Token.lex line = .ok tokens) (lexedOther : Token.lex other = .ok more) :
    Token.lex (joined line s other) = .ok (tokens ++ .separator s :: more) := by
  obtain ⟨ending, scannedOther⟩ := Token.lex_eq_ok_iff.mp lexedOther
  have space : isBlank ' ' = true := by decide
  have glyph : Token.Scanned .bare none (s.glyph ++ ' ' :: other) (.separator s :: more) ending :=
    .glyph (s.atStart?_glyph space) (.blank space scannedOther)
  exact Token.lex_eq_ok_iff.mpr
    ⟨ending, (endsOpen.scanned lexed).append_blank rfl space glyph⟩

/-- A joined line begins as its first line does. -/
theorem BeginsWithCommand.joined (begins : BeginsWithCommand line) (endsOpen : EndsOpen line)
    (holds : HoldsCommand other) : BeginsWithCommand (joined line s other) := by
  obtain ⟨first, more, lexed, noSeparator⟩ := begins
  obtain ⟨tokens, lexedOther, -⟩ := holds
  exact ⟨first, _, lex_joined s endsOpen lexed lexedOther, noSeparator⟩

/-- A line that begins with a command is split into the groups of its items. -/
theorem BeginsWithCommand.split_eq_group (begins : BeginsWithCommand line) :
    ∃ tokens item items, Token.lex line = .ok tokens ∧ Item.ofTokens tokens = item :: items ∧
      (∀ t, item ≠ .cut t) ∧
      Pipeline.split line = Pipeline.group true none [] (item :: items) := by
  obtain ⟨first, more, lexed, noSeparator⟩ := begins
  obtain ⟨item, items, same, noCut⟩ := Item.exists_of_ofTokens_cons more noSeparator
  have member : item ∈ Item.ofTokens (first :: more) := by
    rw [same]
    exact List.mem_cons_self
  exact ⟨_, item, items, lexed, same, noCut, same ▸ Pipeline.split_eq_group lexed member noCut⟩

/-- The items of a joined line are those of the first line, a cut and those of the second. -/
theorem split_joined_eq_group (holds : HoldsCommand line) (endsOpen : EndsOpen line)
    {more : List Token} (lexedOther : Token.lex other = .ok more) :
    ∃ items, (∃ item ∈ items, ∀ t, item ≠ .cut t) ∧
      Pipeline.split line = Pipeline.group true none [] items ∧
      Pipeline.split (joined line s other) =
        Pipeline.group true none [] (items ++ .cut s :: Item.ofTokens more) := by
  obtain ⟨tokens, lexed, token, member, noSeparator⟩ := holds
  have settled := (endsOpen.scanned lexed).settled (by decide)
  obtain ⟨item, inItems, noCut⟩ := settled.exists_mem_resolve member noSeparator
  have itemsJoined : Item.ofTokens (tokens ++ .separator s :: more) =
      Item.ofTokens tokens ++ .cut s :: Item.ofTokens more := settled.resolve_append _
  have inJoined : item ∈ Item.ofTokens (tokens ++ .separator s :: more) := by
    rw [itemsJoined]
    exact List.mem_append_left _ inItems
  refine ⟨Item.ofTokens tokens, ⟨item, inItems, noCut⟩,
    Pipeline.split_eq_group lexed inItems noCut, ?_⟩
  rw [Pipeline.split_eq_group (lex_joined s endsOpen lexed lexedOther) inJoined noCut, itemsJoined]

/-- A joined line is split into the stages of the first line and, behind the separator, those of
the second. -/
theorem split_joined (holds : HoldsCommand line) (endsOpen : EndsOpen line)
    (begins : BeginsWithCommand other) :
    Pipeline.split (joined line s other) = (do
      let stages ← Pipeline.split line
      let later ← Pipeline.split other
      return stages ++ Pipeline.behind s later) := by
  obtain ⟨more, first, itemsOther, lexedOther, same, noCutFirst, splitOther⟩ :=
    begins.split_eq_group
  obtain ⟨items, ⟨item, member, noCut⟩, splitLine, splitBoth⟩ :=
    split_joined_eq_group s holds endsOpen lexedOther
  rw [splitBoth, splitLine, splitOther, Pipeline.group_append_cut, same]
  cases grouped : Pipeline.group true none [] items with
  | error fault => rfl
  | ok stages =>
      have nonempty : stages.isEmpty = false := by
        rw [List.isEmpty_eq_false_iff]
        rintro rfl
        obtain ⟨t, isCut⟩ := (Pipeline.eq_cut_of_group_eq_nil grouped).2 item member
        exact noCut t isCut
      simp only [bind, Except.bind, nonempty, Bool.and_false]
      rw [Pipeline.group_behind_of_head s itemsOther noCutFirst]
      cases Pipeline.group true none [] (first :: itemsOther) <;> rfl

end Seam

/-! ## Any number of lines -/

/-- A line and more lines behind it, each behind its separator. -/
def chain : Text → List (Separator × Text) → Text
  | line, [] => line
  | line, (s, next) :: links => joined line s (chain next links)

/-- A chain begins as its first line does. -/
theorem BeginsWithCommand.chain {line : Text} {links : List (Separator × Text)}
    (begins : BeginsWithCommand line) (beginLinks : ∀ link ∈ links, BeginsWithCommand link.2)
    (endOpen : ∀ segment ∈ (line :: links.map Prod.snd).dropLast, EndsOpen segment) :
    BeginsWithCommand (chain line links) := by
  induction links generalizing line with
  | nil => exact begins
  | cons link links ih =>
      obtain ⟨s, next⟩ := link
      obtain ⟨beginNext, beginLater⟩ := List.forall_mem_cons.mp beginLinks
      obtain ⟨opens, openLater⟩ := List.forall_mem_cons.mp endOpen
      exact begins.joined s opens (ih beginNext beginLater openLater).holdsCommand

/-- A chain of lines of one stage each has one stage for each line, and each reads the one before
it if the separator between them is a pipe. -/
theorem split_chain {line : Text} {links : List (Separator × Text)} {stage : Stage}
    (holds : HoldsCommand line) (beginLinks : ∀ link ∈ links, BeginsWithCommand link.2)
    (endOpen : ∀ segment ∈ (line :: links.map Prod.snd).dropLast, EndsOpen segment)
    (single : Pipeline.split line = .ok [stage])
    (singles : ∀ link ∈ links, ∃ stage, Pipeline.split link.2 = .ok [stage]) :
    ∃ later, Pipeline.split (chain line links) = .ok (stage :: later) ∧
      later.map Stage.readsPrevious = links.map (·.1 == .pipe) := by
  induction links generalizing line stage with
  | nil => exact ⟨[], single, rfl⟩
  | cons link links ih =>
      obtain ⟨s, next⟩ := link
      obtain ⟨beginNext, beginLater⟩ := List.forall_mem_cons.mp beginLinks
      obtain ⟨opens, openLater⟩ := List.forall_mem_cons.mp endOpen
      obtain ⟨⟨first, singleNext⟩, singlesLater⟩ := List.forall_mem_cons.mp singles
      obtain ⟨later, behind, flags⟩ :=
        ih beginNext.holdsCommand beginLater openLater singleNext singlesLater
      refine ⟨{ first with readsPrevious := s == .pipe } :: later, ?_, ?_⟩
      · rw [chain, split_joined s holds opens (beginNext.chain beginLater openLater), single,
          behind]
        rfl
      · rw [List.map_cons, List.map_cons, flags]

/-- Splitting a joined line is splitting its lines: the one can be done if the others can, and
the stages stay as they are but for what the separator says of the stage behind it. A chain of
lines of one stage each has as many stages, which all read the stage before if only pipes join
them and never if none does. -/
theorem splitting_is_compositional :
    (∀ (s : Separator) (line other : Text), HoldsCommand line → EndsOpen line →
      BeginsWithCommand other →
      ((∃ stages, Pipeline.split (joined line s other) = .ok stages) ↔
        (∃ stages, Pipeline.split line = .ok stages) ∧
          ∃ stages, Pipeline.split other = .ok stages) ∧
      ∀ stages later, Pipeline.split line = .ok stages → Pipeline.split other = .ok later →
        ∃ first rest, later = first :: rest ∧ Pipeline.split (joined line s other) =
          .ok (stages ++ { first with readsPrevious := s == .pipe } :: rest)) ∧
    ∀ (line : Text) (links : List (Separator × Text)), HoldsCommand line →
      (∀ link ∈ links, BeginsWithCommand link.2) →
      (∀ segment ∈ (line :: links.map Prod.snd).dropLast, EndsOpen segment) →
      (∀ segment ∈ line :: links.map Prod.snd, ∃ stage, Pipeline.split segment = .ok [stage]) →
      ∃ first later, Pipeline.split (chain line links) = .ok (first :: later) ∧
        later.length = links.length ∧ first.readsPrevious = false ∧
        ((∀ link ∈ links, link.1 = .pipe) → ∀ stage ∈ later, stage.readsPrevious = true) ∧
        ((∀ link ∈ links, link.1 ≠ .pipe) → ∀ stage ∈ later, stage.readsPrevious = false) := by
  refine ⟨?_, ?_⟩
  · intro s line other holds endsOpen begins
    rw [split_joined s holds endsOpen begins]
    constructor
    · cases Pipeline.split line with
      | error fault => simp [bind, Except.bind]
      | ok stages => cases Pipeline.split other <;> simp [bind, Except.bind, pure, Except.pure]
    · intro stages later splits splitsOther
      obtain ⟨first, rest, rfl, -⟩ := Pipeline.exists_first_of_split splitsOther
      rw [splits, splitsOther]
      exact ⟨first, rest, rfl, rfl⟩
  · intro line links holds beginLinks endOpen single
    obtain ⟨⟨first, splits⟩, singles⟩ := List.forall_mem_cons.mp single
    rw [List.forall_mem_map] at singles
    obtain ⟨later, splitAll, flags⟩ := split_chain holds beginLinks endOpen splits singles
    obtain ⟨_, _, same, notReading⟩ := Pipeline.exists_first_of_split splits
    cases same
    have fromLink {stage : Stage} (member : stage ∈ later) :
        ∃ link ∈ links, (link.1 == .pipe) = stage.readsPrevious := by
      rw [← List.mem_map, ← flags]
      exact List.mem_map_of_mem member
    refine ⟨first, later, splitAll, ?_, notReading, ?_, ?_⟩
    · simpa using congrArg List.length flags
    · intro pipes stage member
      obtain ⟨link, inLinks, flag⟩ := fromLink member
      rw [← flag, pipes link inLinks]
      rfl
    · intro noPipes stage member
      obtain ⟨link, inLinks, flag⟩ := fromLink member
      rw [← flag, beq_eq_false_iff_ne]
      exact noPipes link inLinks

/-- A pipe before two stages, and two pipes in a row. -/
theorem joined_pipes_split :
    let line := "cat log".toList
    let other := "sort; date".toList
    let links := [(Separator.pipe, "sort -u".toList), (Separator.pipe, "wc".toList)]
    (∃ stages, Pipeline.split (joined line .pipe other) = .ok stages) ∧
      ∃ first later, Pipeline.split (chain line links) = .ok (first :: later) ∧
        later.length = 2 ∧ first.readsPrevious = false ∧
        ∀ stage ∈ later, stage.readsPrevious = true := by
  intro line other links
  obtain ⟨ofTwo, ofChain⟩ := splitting_is_compositional
  have begins {text : Text} (raw : Text) (more : List Token)
      (lexed : Token.lex text = .ok (.word raw :: more)) : BeginsWithCommand text :=
    ⟨.word raw, more, lexed, by simp⟩
  have holds : HoldsCommand line :=
    (begins "cat".toList [.word "log".toList] (by rfl)).holdsCommand
  have beginsOther : BeginsWithCommand other :=
    begins "sort".toList [.separator .semi, .word "date".toList] (by rfl)
  have beginsLinks : ∀ link ∈ links, BeginsWithCommand link.2 := by
    simp only [links, List.forall_mem_cons]
    exact ⟨begins "sort".toList [.word "-u".toList] (by rfl), begins "wc".toList [] (by rfl),
      List.forall_mem_nil _⟩
  have opens : EndsOpen line := ⟨by decide, by decide⟩
  have opensAll : ∀ segment ∈ (line :: links.map Prod.snd).dropLast, EndsOpen segment := by
    simp only [links, List.map, List.dropLast, List.forall_mem_cons]
    exact ⟨opens, ⟨by decide, by decide⟩, List.forall_mem_nil _⟩
  have splitLine : Pipeline.split line =
      .ok [⟨.ofTexts ["cat".toList, "log".toList], false⟩] := by decide +kernel
  have splitOther : Pipeline.split other =
      .ok [⟨.ofTexts ["sort".toList], false⟩, ⟨.ofTexts ["date".toList], false⟩] := by
    decide +kernel
  have singles : ∀ segment ∈ line :: links.map Prod.snd,
      ∃ stage, Pipeline.split segment = .ok [stage] := by
    simp only [links, List.map, List.forall_mem_cons]
    exact ⟨⟨_, splitLine⟩,
      ⟨⟨.ofTexts ["sort".toList, "-u".toList], false⟩, by decide +kernel⟩,
      ⟨⟨.ofTexts ["wc".toList], false⟩, by decide +kernel⟩, List.forall_mem_nil _⟩
  obtain ⟨splitsIff, -⟩ := ofTwo .pipe line other holds opens beginsOther
  obtain ⟨first, later, splitChain, count, notReading, reading, -⟩ :=
    ofChain line links holds beginsLinks opensAll singles
  exact ⟨splitsIff.mpr ⟨⟨_, splitLine⟩, ⟨_, splitOther⟩⟩, first, later, splitChain, count,
    notReading, reading (by decide)⟩

end Errand.Shell
