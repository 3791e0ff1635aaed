/-
# What a standalone backslash escapes

The tokens alone do not say which separator a backslash escapes. Where escapes are resolved, a
backslash is counted and waits, over any number of words, for a separator to come. It never waits
long. The scan makes a backslash a token of its own only if it ends the line, or if a separator
stands right behind it and the word ends behind that, and then the separator is the next token. So
no more than one backslash is ever waiting, it gets the separator that it stands before, and only
the backslash at the end of a line is restored.
-/
import Errand.Proofs.Shell.Joining
import Mathlib.Data.List.Induction

namespace Errand.Shell

/-! ## Looking no further than a backslash -/

/-- A separator stands free or not whatever follows a character that is part of no separator. -/
theorem freeStanding_append_cons (text : Text) {c : Char} (rest : Text)
    (noGlyph : c ≠ '|' ∧ c ≠ '&' ∧ c ≠ ';') :
    freeStanding (text ++ c :: rest) = freeStanding (text ++ [c]) := by
  rw [freeStanding, freeStanding, Separator.atStart?_append text rest noGlyph,
    Separator.atStart?_append text [] noGlyph]
  cases starts : Separator.atStart? text with
  | none => rfl
  | some s =>
      obtain ⟨behind, rfl⟩ := Separator.exists_of_atStart? starts
      simp only [List.append_assoc, List.drop_left]
      cases behind <;> rfl

/-- A word ends or not whatever follows the next character. -/
theorem endsWord_append_cons (text : Text) (c : Char) (rest : Text) :
    EndsWord (text ++ c :: rest) ↔ EndsWord (text ++ [c]) := by
  cases text <;> exact Iff.rfl

/-- A character stands for itself or not whatever follows a backslash. -/
theorem Token.IsPlain.cut {c : Char} {front rest : Text}
    (isPlain : Token.IsPlain c (front ++ '\\' :: rest)) : Token.IsPlain c (front ++ ['\\']) where
  solid := isPlain.solid
  unescaping := isPlain.unescaping
  unquoting := isPlain.unquoting
  uncut := by
    have uncut := isPlain.uncut
    rw [← List.cons_append, Separator.atStart?_append _ _ (by decide)] at uncut ⊢
    exact uncut

namespace Token

/-! ## Where a backslash comes from -/

/-- What stands behind a backslash token, in the line and among the tokens: nothing at all, or
first of all a separator, behind which the word ends. -/
inductive BehindBackslash : Text → List Token → Prop
  | nothing : BehindBackslash [] []
  | glyph (s : Separator) {rest : Text} {tokens : List Token} (ends : EndsWord rest)
      (lexed : lex rest = .ok tokens) :
      BehindBackslash (s.glyph ++ rest) (.separator s :: tokens)

/-- A backslash is no separator. -/
theorem exists_of_separator_cons {s : Separator} {tokens before after : List Token}
    (split : .separator s :: tokens = before ++ .backslash :: after) :
    ∃ earlier, before = .separator s :: earlier ∧ tokens = earlier ++ .backslash :: after := by
  cases before with
  | nil => cases split
  | cons token before =>
      obtain ⟨rfl, rest⟩ := List.cons.inj split
      exact ⟨before, rfl, rest⟩

/-- A text is cut behind a backslash: what stands before is read as some tokens and the backslash,
and what stands behind goes with the other tokens. -/
def CutAt (quoting : Quoting) (begun : Option Text) (text : Text) (before after : List Token) :
    Prop :=
  ∃ front rest, text = front ++ '\\' :: rest ∧
    Scanned quoting begun (front ++ ['\\']) (before ++ [.backslash]) .backslash ∧
    BehindBackslash rest after

/-- A rule that reads a piece in front reads it also where the text is cut. -/
theorem CutAt.step {quoting later : Quoting} {begun word : Option Text} {rest : Text}
    {before earlier after : List Token} (piece : Text) (cut : CutAt later word rest earlier after)
    (reads : ∀ front behind, rest = front ++ '\\' :: behind →
      Scanned later word (front ++ ['\\']) (earlier ++ [.backslash]) .backslash →
      Scanned quoting begun (piece ++ (front ++ ['\\'])) (before ++ [.backslash]) .backslash) :
    CutAt quoting begun (piece ++ rest) before after := by
  obtain ⟨front, behind, rfl, scanned, follows⟩ := cut
  refine ⟨piece ++ front, behind, (List.append_assoc _ _ _).symm, ?_, follows⟩
  rw [List.append_assoc]
  exact reads front behind rfl scanned

/-- A text can be cut behind each backslash token: the rules that look ahead look for a separator, a
blank or the end, so none looks past the backslash. -/
theorem Scanned.exists_cut {quoting : Quoting} {begun : Option Text} {text : Text}
    {tokens : List Token} {ending : LineEnd} (scanned : Scanned quoting begun text tokens ending)
    {before after : List Token} (split : tokens = before ++ .backslash :: after) :
    CutAt quoting begun text before after := by
  have solid : '\\' ≠ '|' ∧ '\\' ≠ '&' ∧ '\\' ≠ ';' := by decide
  induction scanned generalizing before with
  | finish begun =>
      rw [← List.append_nil (close begun)] at split
      obtain ⟨earlier, -, empty⟩ := exists_of_close_append (by simp) split
      cases earlier <;> cases empty
  | comment rest => cases before <;> cases split
  | @blank c begun rest tokens ending white later ih =>
      obtain ⟨earlier, rfl, behind⟩ := exists_of_close_append (by simp) split
      refine CutAt.step [c] (ih behind) fun _ _ _ cut => ?_
      rw [List.append_assoc]
      exact .blank white cut
  | @glyph s begun rest tokens ending starts later ih =>
      obtain ⟨between, rfl, behindWord⟩ := exists_of_close_append (by simp) split
      obtain ⟨earlier, rfl, behind⟩ := exists_of_separator_cons behindWord
      refine CutAt.step s.glyph (ih behind) fun front rest same cut => ?_
      rw [List.append_assoc, List.cons_append]
      refine .glyph ?_ cut
      rw [same, ← List.append_assoc, Separator.atStart?_append _ _ solid] at starts
      rw [← List.append_assoc, Separator.atStart?_append _ _ solid]
      exact starts
  | lastBackslash begun =>
      obtain ⟨earlier, rfl, behind⟩ := exists_of_close_append (by simp) split
      obtain ⟨rfl, rfl⟩ : earlier = [] ∧ after = [] := by
        cases earlier with
        | nil => exact ⟨rfl, (List.cons.inj behind).2.symm⟩
        | cons token earlier => exact absurd (List.cons.inj behind).2.symm (by simp)
      rw [List.append_nil]
      exact ⟨[], [], rfl, .lastBackslash begun, .nothing⟩
  | @escapedGlyph s rest tokens ending ends later ih =>
      cases before with
      | nil =>
          obtain ⟨-, rfl⟩ := List.cons.inj split
          refine ⟨[], s.glyph ++ rest, rfl, .lastBackslash none, ?_⟩
          exact .glyph s ends (lex_eq_ok_iff.mpr ⟨_, later⟩)
      | cons token before =>
          obtain ⟨rfl, behindBackslash⟩ := List.cons.inj split
          obtain ⟨earlier, rfl, behind⟩ := exists_of_separator_cons behindBackslash
          refine CutAt.step ('\\' :: s.glyph) (ih behind) fun front rest same cut => ?_
          rw [same] at ends
          exact .escapedGlyph ((endsWord_append_cons front '\\' rest).mp ends) cut
  | @escaped c begun rest tokens ending bound later ih =>
      refine CutAt.step ['\\', c] (ih split) fun front rest same => .escaped fun empty => ?_
      rw [same] at bound
      exact (freeStanding_append_cons (c :: front) rest solid).symm.trans (bound empty)
  | @plain c begun rest tokens ending isPlain goesOn later ih =>
      refine CutAt.step [c] (ih split) fun front rest same => .plain ?_ goesOn
      rw [same] at isPlain
      exact isPlain.cut
  | openSingle later ih => exact CutAt.step ['\''] (ih split) fun _ _ _ => .openSingle
  | openDouble later ih => exact CutAt.step ['"'] (ih split) fun _ _ _ => .openDouble
  | closeSingle later ih => exact CutAt.step ['\''] (ih split) fun _ _ _ => .closeSingle
  | closeDouble later ih => exact CutAt.step ['"'] (ih split) fun _ _ _ => .closeDouble
  | @inSingle c begun rest tokens ending other later ih =>
      exact CutAt.step [c] (ih split) fun _ _ _ => .inSingle other
  | @inDouble c begun rest tokens ending other later ih =>
      exact CutAt.step [c] (ih split) fun _ _ _ => .inDouble other
  | @escapedInDouble c begun rest tokens ending later ih =>
      exact CutAt.step ['\\', c] (ih split) fun _ _ _ => .escapedInDouble

/-- The last backslash of a line that is read to it is outside quotes and comments, and no other
backslash escapes it. -/
theorem isBare_of_scanned {front : Text} {tokens : List Token}
    (scanned : Scanned .bare none (front ++ ['\\']) tokens .backslash) :
    (Place.atEnd front).isBare = true := by
  have ended := Place.lineEnd?_behind scanned (.gap _)
  rw [Place.behind_append] at ended
  change ((Place.atEnd front).next '\\').lineEnd? = _ at ended
  cases place : Place.atEnd front with
  | gap | word | ampersand => rfl
  | escape | single | double | doubleEscape | comment =>
      rw [place] at ended
      cases ended

/-- No backslash waits: each is the last token, or the next token is a separator. -/
def NoneWaits (tokens : List Token) : Prop :=
  ∀ before after, tokens = before ++ .backslash :: after →
    after = [] ∨ ∃ s later, after = .separator s :: later

theorem Scanned.noneWaits {text : Text} {tokens : List Token} {ending : LineEnd}
    (scanned : Scanned .bare none text tokens ending) : NoneWaits tokens := by
  intro before after split
  obtain ⟨front, rest, -, -, follows⟩ := scanned.exists_cut split
  cases follows with
  | nothing => exact .inl rfl
  | glyph s ends lexed => exact .inr ⟨s, _, rfl⟩

/-- Only a separator stands behind a backslash. -/
theorem NoneWaits.getLast?_ne {tokens before after : List Token} {token : Token}
    (noneWaits : NoneWaits tokens) (split : tokens = before ++ token :: after)
    (noSeparator : ∀ s, token ≠ .separator s) : before.getLast? ≠ some .backslash := by
  intro last
  obtain ⟨earlier, rfl⟩ := List.getLast?_eq_some_iff.mp last
  rcases noneWaits earlier (token :: after) (by simpa using split) with empty | ⟨s, later, same⟩
  · cases empty
  · exact noSeparator s (List.cons.inj same).1

end Token

/-! ## Escapes waiting for a separator -/

namespace Item

/-- What has come of some tokens: the items found so far, and how many backslashes still wait for a
separator. -/
structure Resolving where
  items : List Item
  escapes : Nat
  deriving DecidableEq, Repr

namespace Resolving

/-- One more token. A separator takes a backslash that waits, or else it cuts. -/
def next (resolving : Resolving) : Token → Resolving
  | .backslash => ⟨resolving.items, resolving.escapes + 1⟩
  | .separator s =>
    ⟨resolving.items ++ [if resolving.escapes = 0 then .cut s else .literal s.glyph],
      resolving.escapes - 1⟩
  | .word raw => ⟨resolving.items ++ [.word raw], resolving.escapes⟩

/-- What has come of these tokens when all of them are read. -/
def behind (tokens : List Token) : Resolving := tokens.foldl next ⟨[], 0⟩

theorem behind_concat (tokens : List Token) (token : Token) :
    behind (tokens ++ [token]) = (behind tokens).next token := by
  rw [behind, List.foldl_append]
  rfl

/-- Behind some tokens the rest is resolved with the backslashes that still wait. -/
theorem append_resolve (resolving : Resolving) (before after : List Token) :
    resolving.items ++ resolve resolving.escapes (before ++ after) =
      (before.foldl next resolving).items ++
        resolve (before.foldl next resolving).escapes after := by
  induction before generalizing resolving with
  | nil => rfl
  | cons token before ih =>
      rw [List.foldl_cons, ← ih]
      obtain ⟨items, escapes⟩ := resolving
      cases token with
      | backslash => rfl
      | word raw => simp [next, resolve]
      | separator s => cases escapes <;> simp [next, resolve]

theorem resolve_append (before after : List Token) :
    resolve 0 (before ++ after) =
      (behind before).items ++ resolve (behind before).escapes after :=
  append_resolve ⟨[], 0⟩ before after

/-- At the end the backslashes that still wait are restored. -/
theorem ofTokens_eq (tokens : List Token) :
    ofTokens tokens =
      (behind tokens).items ++ List.replicate (behind tokens).escapes (.literal ['\\']) := by
  have resolved := resolve_append tokens []
  rw [List.append_nil] at resolved
  rw [ofTokens, resolved, resolve]

section NoneWaits

variable {tokens before after : List Token}

/-- Where no backslash waits, one is counted right behind it and none anywhere else. -/
theorem escapes_behind (noneWaits : Token.NoneWaits tokens) (split : tokens = before ++ after) :
    (behind before).escapes = if before.getLast? = some .backslash then 1 else 0 := by
  induction before using List.reverseRecOn generalizing after with
  | nil => rfl
  | append_singleton before token ih =>
      rw [List.append_assoc, List.singleton_append] at split
      have earlier := ih split
      rw [behind_concat, List.getLast?_concat]
      cases token with
      | backslash =>
          rw [if_neg (noneWaits.getLast?_ne split (by simp))] at earlier
          simp [next, earlier]
      | word raw =>
          rw [if_neg (noneWaits.getLast?_ne split (by simp))] at earlier
          simp [next, earlier]
      | separator s =>
          have atMostOne : (behind before).escapes ≤ 1 := by
            rw [earlier]
            split <;> decide
          simp [next, atMostOne]

/-- No backslash waits at a word. -/
theorem escapes_behind_of_word {raw : Text} (noneWaits : Token.NoneWaits tokens)
    (split : tokens = before ++ .word raw :: after) : (behind before).escapes = 0 := by
  rw [escapes_behind noneWaits split, if_neg (noneWaits.getLast?_ne split (by simp))]

/-- A separator is literal if a backslash stands right before it, and cuts otherwise. -/
theorem items_behind_separator {s : Separator} (noneWaits : Token.NoneWaits tokens)
    (split : tokens = before ++ .separator s :: after) :
    (behind (before ++ [.separator s])).items = (behind before).items ++
      [if before.getLast? = some .backslash then .literal s.glyph else .cut s] := by
  rw [behind_concat, next, escapes_behind noneWaits split]
  split <;> rfl

/-- Only a backslash at the end is restored. -/
theorem ofTokens_eq_of_noneWaits (noneWaits : Token.NoneWaits tokens) :
    ofTokens tokens = (behind tokens).items ++
      if tokens.getLast? = some .backslash then [.literal ['\\']] else [] := by
  rw [ofTokens_eq, escapes_behind noneWaits (List.append_nil tokens).symm]
  split <;> rfl

end NoneWaits

end Resolving

end Item

/-- A backslash token comes from a backslash outside quotes: the tokens before it are read from the
line up to there, and those behind it from the rest. It ends the line, or the next token is the
separator that stands right behind it and ends the word. While escapes are resolved, one backslash
waits right behind such a token and none anywhere else. So a separator is literal exactly if the
token before it is a backslash, no backslash waits at a word, and at most one is restored, at the
end. -/
theorem escapes_reach_next_glyph {line : Text} {tokens : List Token}
    (lexed : Token.lex line = .ok tokens) :
    (∀ before after, tokens = before ++ .backslash :: after →
      ∃ front rest, line = front ++ '\\' :: rest ∧ (Place.atEnd front).isBare = true ∧
        Token.lex (front ++ ['\\']) = .ok (before ++ [.backslash]) ∧
        Token.BehindBackslash rest after) ∧
      (∀ before after, tokens = before ++ after →
        (∀ later, Item.resolve 0 (before ++ later) = (Item.Resolving.behind before).items ++
          Item.resolve (Item.Resolving.behind before).escapes later) ∧
        (Item.Resolving.behind before).escapes =
          if before.getLast? = some .backslash then 1 else 0) ∧
      (∀ before s after, tokens = before ++ .separator s :: after →
        (Item.Resolving.behind (before ++ [.separator s])).items =
          (Item.Resolving.behind before).items ++
            [if before.getLast? = some .backslash then .literal s.glyph else .cut s]) ∧
      (∀ before raw after, tokens = before ++ .word raw :: after →
        (Item.Resolving.behind before).escapes = 0) ∧
      Item.ofTokens tokens = (Item.Resolving.behind tokens).items ++
        if tokens.getLast? = some .backslash then [.literal ['\\']] else [] := by
  obtain ⟨ending, scanned⟩ := Token.lex_eq_ok_iff.mp lexed
  have noneWaits := scanned.noneWaits
  refine ⟨fun before after split => ?_,
    fun before after split => ⟨Item.Resolving.resolve_append before, ?_⟩,
    fun before s after split => ?_, fun before raw after split => ?_, ?_⟩
  · obtain ⟨front, rest, whole, cut, follows⟩ := scanned.exists_cut split
    exact ⟨front, rest, whole, Token.isBare_of_scanned cut,
      Token.lex_eq_ok_iff.mpr ⟨_, cut⟩, follows⟩
  · exact Item.Resolving.escapes_behind noneWaits split
  · exact Item.Resolving.items_behind_separator noneWaits split
  · exact Item.Resolving.escapes_behind_of_word noneWaits split
  · exact Item.Resolving.ofTokens_eq_of_noneWaits noneWaits

/-- A pipe and a pair of pipes behind backslashes, a separator behind a word, and a backslash at the
end. -/
theorem three_backslashes_reach_next_glyph :
    let line := "echo \\| a \\|| b; c \\".toList
    let before : List Token := [.word "echo".toList, .backslash, .separator .pipe, .word ['a']]
    let after : List Token := [.word ['b'], .separator .semi, .word ['c'], .backslash]
    let tokens := before ++ .backslash :: .separator .or :: after
    Token.lex line = .ok tokens ∧
      (∃ front rest, line = front ++ '\\' :: rest ∧ (Place.atEnd front).isBare = true ∧
        Token.lex (front ++ ['\\']) = .ok (before ++ [.backslash]) ∧
        Token.BehindBackslash rest (.separator .or :: after)) ∧
      (Item.Resolving.behind (before ++ [.backslash])).escapes = 1 ∧
      (Item.Resolving.behind (before ++ [.backslash, .separator .or])).items =
        (Item.Resolving.behind (before ++ [.backslash])).items ++ [.literal ['|', '|']] ∧
      (Item.Resolving.behind (before ++ [.backslash, .separator .or])).escapes = 0 ∧
      Item.ofTokens tokens = (Item.Resolving.behind tokens).items ++ [.literal ['\\']] := by
  intro line before after tokens
  have lexed : Token.lex line = .ok tokens := by rfl
  obtain ⟨reaches, counts, settles, unescaped, restored⟩ := escapes_reach_next_glyph lexed
  exact ⟨lexed, reaches before (.separator .or :: after) rfl,
    (counts (before ++ [.backslash]) (.separator .or :: after) rfl).2.trans (if_pos rfl),
    settles (before ++ [.backslash]) .or after rfl,
    unescaped (before ++ [.backslash, .separator .or]) ['b'] _ rfl, restored⟩

end Errand.Shell
