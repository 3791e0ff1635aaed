/-
# The quotes around each character of a word

Two readers keep track of quotes. The scan takes the characters of a line into words, and unquoting
takes the raw words apart again. They go about it differently: inside double quotes the scan takes
any character along with the backslash before it, while unquoting does so only with those that a
backslash protects there, and unquoting takes a variable and its name in one go. Each reader is
followed here with a note of the quotes it stands in whenever it takes a character. The notes change
nothing about what is read.

The notes that both readers make of a word are the same, character by character: they are those of
the walk `Guard.next`. So unquoting ends outside quotes where the scan did, and no line that has
been read fails because of one of its words.
-/
import Errand.Proofs.Shell.Dollars
import Errand.Proofs.Shell.SpacedStages

namespace Errand.Shell

/-! ## Notes -/

/-- Characters in a row, each with the quotes that a reader stood in when it took the character. -/
abbrev Noted := List (Char × Quoting)

/-- The characters that notes were made of. -/
def Noted.text (noted : Noted) : Text := noted.map Prod.fst

/-- The notes on characters that are taken in these quotes. -/
def Quoting.note (quoting : Quoting) (taken : Text) : Noted := taken.map (·, quoting)

namespace Guard

/-- The quotes that a guard is in. -/
def quoting : Guard → Quoting
  | .bare => .bare
  | .escape => .bare
  | .single => .single
  | .double => .double
  | .doubleEscape => .double

/-- The notes of the walk over a raw word, which takes one character at a time. -/
def notes : Guard → Text → Noted
  | _, [] => []
  | guard, c :: rest => (c, guard.quoting) :: (guard.next c).notes rest

@[simp] theorem quoting_guard (quoting : Quoting) : quoting.guard.quoting = quoting := by
  cases quoting <;> rfl

@[simp] theorem text_notes (guard : Guard) (raw : Text) : (guard.notes raw).text = raw := by
  induction raw generalizing guard with
  | nil => rfl
  | cons c rest ih => exact congrArg (c :: ·) (ih (guard.next c))

theorem notes_append (guard : Guard) (text other : Text) :
    guard.notes (text ++ other) = guard.notes text ++ (guard.behind text).notes other := by
  induction text generalizing guard with
  | nil => rfl
  | cons c text ih => exact congrArg (_ :: ·) (ih (guard.next c))

/-- One character alone. -/
theorem notes_singleton (quoting : Quoting) (c : Char) :
    quoting.guard.notes [c] = quoting.note [c] := by
  rw [notes, quoting_guard]
  rfl

/-- One character in front. -/
theorem notes_cons {quoting later : Quoting} {c : Char}
    (leads : quoting.guard.next c = later.guard) (rest : Text) :
    quoting.guard.notes (c :: rest) = quoting.note [c] ++ later.guard.notes rest := by
  rw [notes, leads, quoting_guard]
  rfl

/-- A reference is taken in the quotes that the dollar sign stands in. -/
theorem notes_dollar {guard : Guard} {body : Text} (live : guard.isLive = true)
    (chars : ∀ c ∈ body, isReferenceChar c = true) :
    guard.notes ('$' :: body) = guard.quoting.note ('$' :: body) := by
  rw [notes, next_of_isLive live (by decide)]
  refine congrArg (_ :: ·) ?_
  induction body with
  | nil => rfl
  | cons c body ih =>
      obtain ⟨here, behind⟩ := List.forall_mem_cons.mp chars
      rw [notes, next_of_isLive live (plain_of_isReferenceChar here), ih behind]
      rfl

/-- A backslash that protects nothing leaves the notes as they would be without it. -/
theorem notes_doubleEscape {c : Char} (rest : Text) (idle : isEscapable c = false) :
    Guard.doubleEscape.notes (c :: rest) = Guard.double.notes (c :: rest) := by
  have notQuote : c ≠ '"' := by rintro rfl; cases idle
  have notBackslash : c ≠ '\\' := by rintro rfl; cases idle
  rw [notes, notes, next, next, if_neg notQuote, if_neg notBackslash]
  rfl

end Guard

/-! ## The scan with notes -/

/-- A token of a line. Of a word it tells for every character in which quotes it was taken. -/
inductive NotedToken where
  | word (noted : Noted)
  | separator (s : Separator)
  | backslash
  deriving DecidableEq, Repr

namespace NotedToken

/-- The token without the notes. -/
def token : NotedToken → Token
  | .word noted => .word noted.text
  | .separator s => .separator s
  | .backslash => .backslash

/-- The word that has begun, as a token. -/
def close : Option Noted → List NotedToken
  | none => []
  | some noted => [.word noted]

/-- The word that has begun, or a new one, with characters at its end that were taken in these
quotes. -/
def extend (begun : Option Noted) (quoting : Quoting) (taken : Text) : Option Noted :=
  some (begun.getD [] ++ quoting.note taken)

/-- The scan of the rest of a line as `Token.scan` makes it, with a note of the quotes that are open
whenever it takes a character into a word. -/
def scan : Quoting → Option Noted → Text → Except Char (List NotedToken)
  | .bare, begun, [] => .ok (close begun)
  | .single, _, [] => .error '\''
  | .double, _, [] => .error '"'
  | .single, begun, c :: rest =>
    scan (if c = '\'' then .bare else .single) (extend begun .single [c]) rest
  | .double, begun, '\\' :: next :: rest => scan .double (extend begun .double ['\\', next]) rest
  | .double, begun, c :: rest =>
    scan (if c = '"' then .bare else .double) (extend begun .double [c]) rest
  | .bare, begun, '\\' :: [] => .ok (close begun ++ [.backslash])
  | .bare, begun, '\\' :: next :: rest =>
    if begun.isNone && freeStanding (next :: rest) then
      (scan .bare none (next :: rest)).map (.backslash :: ·)
    else scan .bare (extend begun .bare ['\\', next]) rest
  | .bare, begun, '|' :: '|' :: rest =>
    (scan .bare none rest).map (close begun ++ .separator .or :: ·)
  | .bare, begun, '&' :: '&' :: rest =>
    (scan .bare none rest).map (close begun ++ .separator .and :: ·)
  | .bare, begun, '|' :: rest =>
    (scan .bare none rest).map (close begun ++ .separator .pipe :: ·)
  | .bare, begun, ';' :: rest =>
    (scan .bare none rest).map (close begun ++ .separator .semi :: ·)
  | .bare, begun, c :: rest =>
    if isBlank c then (scan .bare none rest).map (close begun ++ ·)
    else if c = '#' && begun.isNone then .ok []
    else scan (if c = '\'' then .single else if c = '"' then .double else .bare)
      (extend begun .bare [c]) rest

/-- The token with the notes that the walk makes of a word. -/
def ofToken : Token → NotedToken
  | .word raw => .word (Guard.bare.notes raw)
  | .separator s => .separator s
  | .backslash => .backslash

@[simp] theorem token_ofToken (token : Token) : (ofToken token).token = token := by
  cases token with
  | word raw => exact congrArg Token.word (Guard.text_notes _ raw)
  | separator s => rfl
  | backslash => rfl

theorem map_token_map_ofToken (tokens : List Token) :
    (tokens.map ofToken).map NotedToken.token = tokens := by
  simp [Function.comp_def]

theorem close_map_notes (begun : Option Text) :
    close (begun.map Guard.bare.notes) = (Token.close begun).map ofToken := by
  cases begun <;> rfl

/-- What is put in front of the tokens may as well be put in front of those with notes. -/
theorem map_map_ofToken {before : List Token → List Token}
    {beforeNoted : List NotedToken → List NotedToken}
    (same : ∀ tokens, beforeNoted (tokens.map ofToken) = (before tokens).map ofToken)
    (result : Except Char (List Token)) :
    (result.map (·.map ofToken)).map beforeNoted = (result.map before).map (·.map ofToken) := by
  cases result with
  | error quote => rfl
  | ok tokens => exact congrArg Except.ok (same tokens)

variable {quoting later : Quoting} {begun : Option Text} {taken rest : Text}

/-- Characters taken into a word are noted as the walk notes them. -/
theorem scan_taken (guarded : Guard.bare.behind (begun.getD []) = quoting.guard)
    (same : quoting.guard.notes taken = quoting.note taken)
    (leads : quoting.guard.behind taken = later.guard)
    (behind : Guard.bare.behind ((Token.extend begun taken).getD []) = later.guard →
      scan later ((Token.extend begun taken).map Guard.bare.notes) rest =
        (Token.scan later (Token.extend begun taken) rest).map (·.map ofToken)) :
    scan later (extend (begun.map Guard.bare.notes) quoting taken) rest =
      (Token.scan later (Token.extend begun taken) rest).map (·.map ofToken) := by
  have extended : extend (begun.map Guard.bare.notes) quoting taken =
      (Token.extend begun taken).map Guard.bare.notes := by
    rw [Token.extend, Option.map_some, Guard.notes_append, guarded, same, extend]
    cases begun <;> rfl
  rw [extended]
  refine behind ?_
  rw [Token.extend, Option.getD_some, Guard.behind_append, guarded, leads]

/-- The notes of the scan are those of the walk, and they do not change what is read. -/
theorem scan_map_notes {quoting : Quoting} {begun : Option Text} (text : Text)
    (guarded : Guard.bare.behind (begun.getD []) = quoting.guard) :
    scan quoting (begun.map Guard.bare.notes) text =
      (Token.scan quoting begun text).map (·.map ofToken) := by
  have isNone (begun : Option Text) : (begun.map Guard.bare.notes).isNone = begun.isNone := by
    cases begun <;> rfl
  fun_induction Token.scan quoting begun text with
  | case1 begun => rw [scan, close_map_notes]; rfl
  | case2 | case3 => rfl
  | case4 begun c rest ih =>
      refine scan_taken guarded (Guard.notes_singleton .single c) ?_ ih
      show Guard.single.next c = _
      rw [Guard.next]
      split <;> rfl
  | case5 begun c rest ih => exact scan_taken guarded rfl rfl ih
  | case6 begun c rest unescaped ih =>
      rw [scan]
      · by_cases isBackslash : c = '\\'
        · subst isBackslash
          cases rest with
          | nil => rfl
          | cons next rest => exact absurd rfl (unescaped next rest rfl)
        · refine scan_taken guarded (Guard.notes_singleton .double c) ?_ ih
          show Guard.double.next c = _
          rw [Guard.next, if_neg isBackslash]
          split <;> rfl
      · exact unescaped
  | case7 begun => rw [scan, close_map_notes]; simp [Except.map, ofToken]
  | case8 begun c rest free ih =>
      obtain ⟨notBegun, -⟩ := Bool.and_eq_true_iff.mp free
      obtain rfl := Option.isNone_iff_eq_none.mp notBegun
      have fresh : scan .bare none (c :: rest) = _ := ih rfl
      rw [scan, isNone, if_pos free, fresh]
      exact map_map_ofToken (fun _ => rfl) _
  | case9 begun c rest bound ih =>
      rw [scan, isNone, if_neg bound]
      exact scan_taken guarded rfl rfl ih
  | case10 begun rest ih | case11 begun rest ih | case13 begun rest ih =>
      have fresh : scan .bare none rest = _ := ih rfl
      rw [scan, close_map_notes, fresh]
      exact map_map_ofToken (by simp [ofToken]) _
  | case12 begun rest single ih =>
      have fresh : scan .bare none rest = _ := ih rfl
      rw [scan, close_map_notes, fresh]
      · exact map_map_ofToken (by simp [ofToken]) _
      · exact single
  | case14 begun c rest loneBackslash backslash or and pipe semi white ih =>
      have fresh : scan .bare none rest = _ := ih rfl
      rw [scan, if_pos white, close_map_notes, fresh]
      · exact map_map_ofToken (by simp) _
      all_goals assumption
  | case15 begun c rest loneBackslash backslash or and pipe semi solid commented =>
      rw [scan, if_neg solid, isNone, if_pos commented]
      · rfl
      all_goals assumption
  | case16 begun c rest loneBackslash backslash or and pipe semi solid uncommented ih =>
      have notBackslash : c ≠ '\\' := by
        rintro rfl
        cases rest with
        | nil => exact loneBackslash rfl rfl
        | cons next rest => exact backslash next rest rfl rfl
      rw [scan, if_neg solid, isNone, if_neg uncommented]
      · refine scan_taken guarded (Guard.notes_singleton .bare c) ?_ ih
        show Guard.bare.next c = _
        rw [Guard.next, if_neg notBackslash]
        split
        · rfl
        · split <;> rfl
      all_goals assumption

end NotedToken

/-! ## Unquoting with notes -/

namespace Word

/-- Characters of a raw word taken in these quotes, and the parts that they add to the word, in
front of what is read behind them. -/
def turn (quoting : Quoting) (taken : Text) (added : Word) : Word × Noted → Word × Noted :=
  fun (word, noted) => (added ++ word, quoting.note taken ++ noted)

/-- The parts of the rest of a raw word as `Word.unquoteFrom` finds them, with a note of the quotes
that are open whenever it takes a character. -/
def unquoteNoted : Quoting → Text → Except Char (Word × Noted)
  | .bare, [] => .ok ([], [])
  | .single, [] => .error '\''
  | .double, [] => .error '"'
  | .single, c :: rest =>
    if c = '\'' then (unquoteNoted .bare rest).map (turn .single [c] [])
    else (unquoteNoted .single rest).map (turn .single [c] [.literal c])
  | quoting, c :: rest =>
    if c = '\\' then
      match rest with
      | [] => (unquoteNoted quoting []).map (turn quoting [c] [.literal c])
      | next :: behind =>
        if quoting = .bare || isEscapable next then
          (unquoteNoted quoting behind).map (turn quoting [c, next] [.literal next])
        else (unquoteNoted quoting (next :: behind)).map (turn quoting [c] [.literal c])
    else if c = '$' then
      match _found : reference? rest with
      | some (part, after) => (unquoteNoted quoting after).map (turn quoting part.text [part])
      | none => (unquoteNoted quoting rest).map (turn quoting [c] [.literal c])
    else if c = '"' then
      (unquoteNoted (if quoting = .bare then .double else .bare) rest).map (turn quoting [c] [])
    else if c = '\'' && quoting = .bare then
      (unquoteNoted .single rest).map (turn quoting [c] [])
    else (unquoteNoted quoting rest).map (turn quoting [c] [.literal c])
termination_by _ raw => raw.length
decreasing_by
  all_goals simp only [List.length_cons]
  all_goals first
    | omega
    | (have shorter := reference?_shorter _found; omega)

section Turn

variable {quoting later : Quoting} {rest : Text}

/-- A turn that takes characters as the walk does, in front of a rest that is noted by the walk. -/
theorem map_turn {raw taken : Text} {added : Word} {whole : Except Char Word}
    (adds : whole = (unquoteFrom later rest).map (added ++ ·))
    (same : quoting.guard.notes raw = quoting.note taken ++ later.guard.notes rest)
    (behind : unquoteNoted later rest =
      (unquoteFrom later rest).map fun word => (word, later.guard.notes rest)) :
    (unquoteNoted later rest).map (turn quoting taken added) =
      whole.map fun word => (word, quoting.guard.notes raw) := by
  rw [adds, behind, same]
  cases unquoteFrom later rest <;> rfl

theorem unquoteNoted_reference {after : Text} {part : Part} (notSingle : quoting ≠ .single)
    (found : reference? rest = some (part, after)) :
    unquoteNoted quoting ('$' :: rest) =
      (unquoteNoted quoting after).map (turn quoting part.text [part]) := by
  rw [unquoteNoted.eq_def]
  cases quoting with
  | single => exact absurd rfl notSingle
  | bare | double =>
      simp only [if_true, Char.reduceEq, if_false]
      split
      · next foundToo =>
          cases found.symm.trans foundToo
          rfl
      · next missing => cases found.symm.trans missing

theorem unquoteNoted_loneDollar (notSingle : quoting ≠ .single)
    (missing : reference? rest = none) :
    unquoteNoted quoting ('$' :: rest) =
      (unquoteNoted quoting rest).map (turn quoting ['$'] [.literal '$']) := by
  rw [unquoteNoted.eq_def]
  cases quoting with
  | single => exact absurd rfl notSingle
  | bare | double =>
      simp only [if_true, Char.reduceEq, if_false]
      split
      · next found => cases missing.symm.trans found
      · rfl

end Turn

/-- The notes of unquoting are those of the walk, and they do not change what is read. -/
theorem unquoteNoted_eq (quoting : Quoting) (raw : Text) :
    unquoteNoted quoting raw =
      (unquoteFrom quoting raw).map fun word => (word, quoting.guard.notes raw) := by
  have nothing (result : Except Char Word) : result = result.map ([] ++ ·) := by
    cases result <;> rfl
  fun_induction unquoteFrom quoting raw with
  | case1 | case2 | case3 => rw [unquoteNoted]; rfl
  | case4 rest ih =>
      rw [unquoteNoted, if_pos rfl]
      exact map_turn (nothing _) rfl ih
  | case5 c rest other ih =>
      rw [unquoteNoted, if_neg other]
      refine map_turn rfl (Guard.notes_cons ?_ rest) ih
      exact if_neg other
  | case6 quoting notSingle ih =>
      rw [unquoteNoted, if_pos rfl]
      · refine map_turn rfl ?_ ih
        cases quoting <;> rfl
      · exact notSingle
  | case7 quoting notSingle next behind taken ih =>
      rw [unquoteNoted, if_pos rfl]
      · rw [if_pos taken]
        refine map_turn rfl ?_ ih
        cases quoting with
        | single => exact absurd rfl notSingle
        | bare | double => rfl
      · exact notSingle
  | case8 quoting notSingle next behind idle ih =>
      rw [unquoteNoted, if_pos rfl]
      · rw [if_neg idle]
        refine map_turn rfl ?_ ih
        cases quoting with
        | single => exact absurd rfl notSingle
        | bare => simp at idle
        | double =>
            exact congrArg (_ :: ·) (Guard.notes_doubleEscape behind (by simpa using idle))
      · exact notSingle
  | case9 quoting rest notSingle part after found notBackslash ih =>
      obtain ⟨body, rfl, spelled, chars⟩ := append_of_reference? found
      have live := isLive_guard notSingle
      rw [unquoteNoted_reference notSingle found]
      refine map_turn rfl ?_ ih
      rw [← List.cons_append, Guard.notes_append, Guard.behind_dollar live chars,
        Guard.notes_dollar live chars, Guard.quoting_guard, spelled]
  | case10 quoting rest notSingle missing notBackslash ih =>
      have stays := Guard.next_of_isLive (c := '$') (isLive_guard notSingle) (by decide)
      rw [unquoteNoted_loneDollar notSingle missing]
      exact map_turn rfl (Guard.notes_cons stays rest) ih
  | case11 quoting rest notSingle notBackslash notDollar ih =>
      rw [unquoteNoted.eq_def]
      cases quoting with
      | single => exact absurd rfl notSingle
      | bare | double => exact map_turn (nothing _) rfl ih
  | case12 quoting c rest notSingle notBackslash notDollar notDouble opens ih =>
      simp only [Bool.and_eq_true, decide_eq_true_eq] at opens
      obtain ⟨rfl, rfl⟩ := opens
      rw [unquoteNoted.eq_def]
      exact map_turn (nothing _) rfl ih
  | case13 quoting c rest notSingle notBackslash notDollar notDouble stays ih =>
      have turned : unquoteNoted quoting (c :: rest) =
          (unquoteNoted quoting rest).map (turn quoting [c] [.literal c]) := by
        clear ih
        rw [unquoteNoted.eq_def]
        cases quoting <;> simp_all
      rw [turned]
      refine map_turn rfl (Guard.notes_cons ?_ rest) ih
      cases quoting with
      | single => exact absurd rfl notSingle
      | bare =>
          have notQuote : c ≠ '\'' := by simpa using stays
          show Guard.bare.next c = .bare
          rw [Guard.next, if_neg notQuote, if_neg notDouble, if_neg notBackslash]
      | double =>
          show Guard.double.next c = .double
          rw [Guard.next, if_neg notDouble, if_neg notBackslash]

end Word

/-! ## The words of a line -/

/-- A raw word that ends in a backslash which no backslash escapes. -/
def Dangles (raw : Text) : Prop :=
  ∃ before, raw = before ++ ['\\'] ∧ Guard.bare.behind before ≠ .escape

/-- A raw word that is over outside quotes has nothing left to escape. -/
theorem not_dangles {raw : Text} (closed : Guard.bare.behind raw = .bare) : ¬ Dangles raw := by
  rintro ⟨before, rfl, unescaped⟩
  rw [Guard.behind_append] at closed
  cases guard : Guard.bare.behind before with
  | escape => exact unescaped guard
  | bare | single | double | doubleEscape =>
      rw [guard] at closed
      cases closed

/-- A line that can be read is refused, if at all, for other reasons than an open quote. -/
theorem Pipeline.split_ne_openQuote {line : Text} {tokens : List Token}
    (lexed : Token.lex line = .ok tokens) (quote : Char) (text : Text) :
    split line ≠ .error (.openQuote quote text) := by
  obtain ⟨stages, grouped⟩ := exists_group_of_lex lexed
  rw [← group_dropFinalCut] at grouped
  rw [split, lexed]
  simp only [bind, Except.bind]
  split
  · rw [single, Words.split]
    cases Words.splitFrom .bare none line with
    | none => simp [bind, Except.bind]
    | some words => cases words <;> simp [bind, Except.bind]
  · rw [grouped]
    cases stages <;> simp

/-- Every word of a line can be unquoted. At each of its characters unquoting stands in the same
quotes as the scan did when it took the character into the word, and at its end no backslash is
left that would escape something. So the items of a line that has been read can be grouped into
stages, and splitting finds no open quote in them. -/
theorem words_are_unquoted_as_scanned {line : Text} {tokens : List Token}
    (lexed : Token.lex line = .ok tokens) :
    (∃ noted, NotedToken.scan .bare none line = .ok noted ∧ noted.map NotedToken.token = tokens ∧
      ∀ taken : Noted, .word taken ∈ noted →
        (∃ word, Word.unquote taken.text = .ok word ∧
          Word.unquoteNoted .bare taken.text = .ok (word, taken)) ∧ ¬ Dangles taken.text) ∧
      (∃ stages, Pipeline.group true none [] (Item.dropFinalCut (Item.ofTokens tokens)) =
        .ok stages) ∧
      ∀ quote text, Pipeline.split line ≠ .error (.openQuote quote text) := by
  obtain ⟨ending, scanned⟩ := Token.lex_eq_ok_iff.mp lexed
  refine ⟨⟨tokens.map .ofToken, ?_, NotedToken.map_token_map_ofToken tokens, ?_⟩, ?_,
    Pipeline.split_ne_openQuote lexed⟩
  · have atStart : Guard.bare.behind ((none : Option Text).getD []) = Quoting.bare.guard := rfl
    have noted := NotedToken.scan_map_notes line atStart
    rw [scanned.scan_eq_ok] at noted
    exact noted
  · intro taken member
    obtain ⟨token, inTokens, same⟩ := List.mem_map.mp member
    cases token with
    | separator s => cases same
    | backslash => cases same
    | word raw =>
        cases same
        obtain ⟨word, unquotes⟩ := Token.exists_unquote_of_lex lexed raw inTokens
        have isWhole := Token.isWhole_of_scanned scanned (.none line) raw inTokens
        rw [Guard.text_notes]
        refine ⟨⟨word, unquotes, ?_⟩, not_dangles isWhole.closed⟩
        rw [Word.unquoteNoted_eq, Word.unquoteFrom_of_unquote unquotes]
        rfl
  · obtain ⟨stages, grouped⟩ := Pipeline.exists_group_of_lex lexed
    exact ⟨stages, (Pipeline.group_dropFinalCut _).trans grouped⟩

/-- Backslashes at work and idle ones, a reference and an escaped quote in double quotes, a
backslash in single quotes and an escaped one at the end. -/
theorem quoted_word_is_unquoted_as_scanned :
    let line := "\"\\x$b\\\"\"'\\'\\\\ | c".toList
    let raw := "\"\\x$b\\\"\"'\\'\\\\".toList
    let quotes : List Quoting := .bare :: List.replicate 7 .double ++
      [.bare, .single, .single, .bare, .bare]
    let tokens : List Token := [.word raw, .separator .pipe, .word ['c']]
    Token.lex line = .ok tokens ∧
      NotedToken.scan .bare none line =
        .ok [.word (raw.zip quotes), .separator .pipe, .word [('c', .bare)]] ∧
      (∃ word, Word.unquote raw = .ok word ∧
        Word.unquoteNoted .bare raw = .ok (word, raw.zip quotes)) ∧
      ¬ Dangles raw ∧
      (∃ stages, Pipeline.group true none [] (Item.dropFinalCut (Item.ofTokens tokens)) =
        .ok stages) ∧
      ∀ quote text, Pipeline.split line ≠ .error (.openQuote quote text) := by
  intro line raw quotes tokens
  have lexed : Token.lex line = .ok tokens := by rfl
  have scanned : NotedToken.scan .bare none line =
      .ok [.word (raw.zip quotes), .separator .pipe, .word [('c', .bare)]] := by rfl
  obtain ⟨⟨noted, scannedToo, -, each⟩, grouped, noQuote⟩ := words_are_unquoted_as_scanned lexed
  obtain rfl := Except.ok.inj (scanned.symm.trans scannedToo)
  obtain ⟨unquotes, closed⟩ := each (raw.zip quotes) List.mem_cons_self
  exact ⟨lexed, scanned, unquotes, closed, grouped, noQuote⟩

end Errand.Shell
