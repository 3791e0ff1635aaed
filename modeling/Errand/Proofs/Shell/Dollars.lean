/-
# Which dollar signs refer to variables

A dollar sign begins a reference if no single quotes and no backslash guard it and a name stands
right behind it, in braces or not. All others are characters like any other. A derivation of
`Parted` follows a raw word from left to right and settles this for one dollar sign after the
other: a reference takes its name along, every other character is literal or dropped. What is said
here of the references of a word, where they stand and what they name, is proved by induction on
it.
-/
import Errand.Proofs.Shell.Guarding
import Errand.Proofs.Shell.References

namespace Errand.Shell

/-! ## Names behind a dollar sign -/

/-- The longest name that a text begins with. -/
structure LongestName (text name : Text) : Prop where
  named : IsName name
  starts : name <+: text
  longest : ∀ other, IsName other → other <+: text → other.length ≤ name.length

/-- What stands behind a dollar sign names a variable, in braces or not. -/
inductive Names : Text → Text → Bool → Prop
  | plain {text name : Text} (longest : LongestName text name) : Names text name false
  | braced {name : Text} {rest : Text} (longest : LongestName (name ++ '}' :: rest) name) :
      Names ('{' :: (name ++ '}' :: rest)) name true

theorem name?_eq_some_iff {text name after : Text} :
    name? text = some (name, after) ↔
      text = name ++ after ∧ IsName name ∧ ∀ c ∈ after.head?, isNameChar c = false := by
  constructor
  · intro found
    refine ⟨(append_of_name? found).1, isName_of_name? found, ?_⟩
    cases text with
    | nil => cases found
    | cons c rest =>
        rw [name?] at found
        split at found
        · cases found
          intro d first
          have stops := List.head?_dropWhile_not isNameChar rest
          simp only [Option.mem_def] at first
          rw [first] at stops
          simpa using stops
        · cases found
  · rintro ⟨rfl, named, stops⟩
    exact named.name?_append stops

theorem IsName.concat {name : Text} {c : Char} (named : IsName name)
    (goesOn : isNameChar c = true) : IsName (name ++ [c]) := by
  cases name with
  | nil => exact named.elim
  | cons first rest =>
      refine ⟨named.1, List.forall_mem_append.mpr ⟨named.2, List.forall_mem_singleton.mpr ?_⟩⟩
      simpa [isNameChar, isNameStart, Char.isAlphanum, or_assoc] using goesOn

/-- The longest name is the one behind which no character goes on with a name. -/
theorem longestName_iff {name after : Text} :
    LongestName (name ++ after) name ↔
      IsName name ∧ ∀ c ∈ after.head?, isNameChar c = false := by
  constructor
  · rintro ⟨named, -, longest⟩
    refine ⟨named, fun c first => ?_⟩
    obtain ⟨rest, rfl⟩ := List.head?_eq_some_iff.mp first
    by_contra goesOn
    have longer := longest (name ++ [c]) (named.concat (Bool.not_eq_false _ ▸ goesOn))
      ⟨rest, by simp⟩
    rw [List.length_append, List.length_singleton] at longer
    omega
  · rintro ⟨named, stops⟩
    refine ⟨named, List.prefix_append name after, fun other namedToo starts => ?_⟩
    by_contra longer
    obtain ⟨more, rfl⟩ := List.prefix_of_prefix_length_le (List.prefix_append name after) starts
      (Nat.le_of_not_le longer)
    cases more with
    | nil => simp at longer
    | cons c more =>
        obtain ⟨rest, rfl⟩ := (List.prefix_append_right_inj name).mp starts
        have noPart := stops c rfl
        rw [namedToo.isNameChar_of_mem c (by simp)] at noPart
        cases noPart

theorem exists_of_reference? {text after : Text} {part : Part}
    (found : reference? text = some (part, after)) :
    ∃ name braced, part = .reference name braced := by
  unfold reference? at found
  split at found
  · split at found
    · cases found
      exact ⟨_, _, rfl⟩
    · cases found
  · obtain ⟨_, -, same⟩ := Option.map_eq_some_iff.mp found
    cases same
    exact ⟨_, _, rfl⟩

/-- What is read behind a dollar sign as a reference is one. -/
theorem exists_reference?_iff {text name : Text} {braced : Bool} :
    (∃ after, reference? text = some (.reference name braced, after)) ↔ Names text name braced := by
  constructor
  · rintro ⟨after, found⟩
    unfold reference? at found
    split at found
    · split at found
      · next rest taken behind inBraces =>
          cases found
          obtain ⟨rfl, named⟩ := name?_eq_some_iff.mp inBraces
          exact .braced (longestName_iff.mpr named)
      · cases found
    · obtain ⟨⟨taken, behind⟩, found, same⟩ := Option.map_eq_some_iff.mp found
      cases same
      obtain ⟨rfl, named⟩ := name?_eq_some_iff.mp found
      exact .plain (longestName_iff.mpr named)
  · intro names
    cases names with
    | plain longest =>
        obtain ⟨after, rfl⟩ := longest.starts
        obtain ⟨named, stops⟩ := longestName_iff.mp longest
        exact ⟨after, named.reference?_append stops⟩
    | @braced name rest longest => exact ⟨rest, longest.named.reference?_braced rest⟩

/-! ## The parts of a raw word -/

/-- Whether a dollar sign may begin a reference: it is outside single quotes and not behind a
backslash. -/
def Guard.isLive : Guard → Bool
  | .bare => true
  | .double => true
  | .escape => false
  | .single => false
  | .doubleEscape => false

/-- From a guard on, a raw word is made of these parts. -/
inductive Parted : Guard → Text → Word → Prop
  | finish (guard : Guard) : Parted guard [] []
  | dropped {guard : Guard} {c : Char} {rest : Text} {word : Word}
      (drops : guard.drops c rest.head? = true) (later : Parted (guard.next c) rest word) :
      Parted guard (c :: rest) word
  | literal {guard : Guard} {c : Char} {rest : Text} {word : Word}
      (keeps : guard.drops c rest.head? = false)
      (idle : c = '$' → guard.isLive = true → ∀ name braced, ¬ Names rest name braced)
      (later : Parted (guard.next c) rest word) : Parted guard (c :: rest) (.literal c :: word)
  | reference {guard : Guard} {body rest name : Text} {braced : Bool} {word : Word}
      (live : guard.isLive = true) (names : Names (body ++ rest) name braced)
      (spelled : (Part.reference name braced).text = '$' :: body)
      (chars : ∀ c ∈ body, isReferenceChar c = true) (later : Parted guard rest word) :
      Parted guard ('$' :: (body ++ rest)) (.reference name braced :: word)

theorem isLive_guard {quoting : Quoting} (notSingle : quoting ≠ .single) :
    quoting.guard.isLive = true := by
  cases quoting with
  | single => exact absurd rfl notSingle
  | bare | double => rfl

/-- Where no dollar sign is live, a character that is kept is literal. -/
theorem Parted.literal_of_guarded {guard : Guard} {c : Char} {rest : Text} {word : Word}
    (guarded : guard.isLive = false) (keeps : guard.drops c rest.head? = false)
    (later : Parted (guard.next c) rest word) : Parted guard (c :: rest) (.literal c :: word) :=
  .literal keeps (fun _ live => absurd (guarded.symm.trans live) Bool.false_ne_true) later

/-- A backslash that protects nothing leaves the next character as it would be without it. -/
theorem Parted.of_idleBackslash {c : Char} {rest : Text} {word : Word}
    (parted : Parted .double (c :: rest) word) (idle : isEscapable c = false) :
    Parted .doubleEscape (c :: rest) word := by
  have apart (other : Char) (escapable : isEscapable other = true) : c ≠ other := by
    rintro rfl
    rw [escapable] at idle
    cases idle
  have notQuote := apart '"' (by decide)
  have notBackslash := apart '\\' (by decide)
  cases parted with
  | dropped drops later => simp [Guard.drops, notQuote, notBackslash] at drops
  | literal keeps refersNot later =>
      rw [Guard.next, if_neg notQuote, if_neg notBackslash] at later
      exact .literal_of_guarded rfl rfl later
  | reference => exact absurd rfl (apart '$' (by decide))

section Quoting

variable {quoting : Quoting} {c : Char} {rest : Text} {word : Word}

/-- A character that is no dollar sign and is kept is literal. -/
theorem Parted.literal_of_ne {guard : Guard} (notDollar : c ≠ '$')
    (keeps : guard.drops c rest.head? = false) (later : Parted (guard.next c) rest word) :
    Parted guard (c :: rest) (.literal c :: word) :=
  .literal keeps (fun dollar => absurd dollar notDollar) later

/-- A backslash at work and the character behind it. -/
theorem Parted.escaped (notSingle : quoting ≠ .single)
    (taken : (quoting = .bare || isEscapable c) = true) (parted : Parted quoting.guard rest word) :
    Parted quoting.guard ('\\' :: c :: rest) (.literal c :: word) := by
  cases quoting with
  | single => exact absurd rfl notSingle
  | bare => exact .dropped rfl (.literal_of_guarded rfl rfl parted)
  | double =>
      refine .dropped ?_ (.literal_of_guarded rfl rfl parted)
      simpa [Quoting.guard, Guard.drops] using taken

/-- A backslash that protects nothing. -/
theorem Parted.idleBackslash (notSingle : quoting ≠ .single)
    (idle : ¬ (quoting = .bare || isEscapable c) = true)
    (parted : Parted quoting.guard (c :: rest) word) :
    Parted quoting.guard ('\\' :: c :: rest) (.literal '\\' :: word) := by
  cases quoting with
  | single => exact absurd rfl notSingle
  | bare => simp at idle
  | double =>
      have unprotected : isEscapable c = false := by simpa using idle
      refine .literal_of_ne (by decide) ?_ (parted.of_idleBackslash unprotected)
      simp [Quoting.guard, Guard.drops, unprotected]

/-- A character that no rule outside single quotes is about. -/
theorem Parted.plain (notSingle : quoting ≠ .single)
    (plain : c ≠ '\\' ∧ c ≠ '$' ∧ c ≠ '"') (stays : ¬ (c = '\'' && quoting = .bare) = true)
    (parted : Parted quoting.guard rest word) :
    Parted quoting.guard (c :: rest) (.literal c :: word) := by
  obtain ⟨notBackslash, notDollar, notDouble⟩ := plain
  cases quoting with
  | single => exact absurd rfl notSingle
  | bare =>
      have notQuote : c ≠ '\'' := by simpa using stays
      refine .literal_of_ne notDollar ?_ ?_
      · simp [Quoting.guard, Guard.drops, notQuote, notDouble, notBackslash]
      · rwa [Quoting.guard, Guard.next, if_neg notQuote, if_neg notDouble, if_neg notBackslash]
  | double =>
      refine .literal_of_ne notDollar ?_ ?_
      · simp [Quoting.guard, Guard.drops, notDouble, notBackslash]
      · rwa [Quoting.guard, Guard.next, if_neg notDouble, if_neg notBackslash]

end Quoting

/-- The parts that unquoting gives are those of the raw word. -/
theorem parted_of_unquoteFrom {quoting : Quoting} {raw : Text} {word : Word}
    (unquotes : Word.unquoteFrom quoting raw = .ok word) : Parted quoting.guard raw word := by
  fun_induction Word.unquoteFrom quoting raw generalizing word with
  | case1 =>
      cases unquotes
      exact .finish _
  | case2 | case3 => cases unquotes
  | case4 rest ih => exact .dropped rfl (ih unquotes)
  | case5 c rest other ih =>
      obtain ⟨later, found, rfl⟩ := exists_of_map_eq_ok unquotes
      refine .literal_of_guarded rfl (by simp [Quoting.guard, Guard.drops, other]) ?_
      rw [Quoting.guard, Guard.next, if_neg other]
      exact ih found
  | case6 quoting notSingle ih =>
      obtain ⟨later, found, rfl⟩ := exists_of_map_eq_ok unquotes
      cases quoting with
      | single => exact absurd rfl notSingle
      | double =>
          rw [Word.unquoteFrom] at found
          cases found
      | bare =>
          rw [Word.unquoteFrom] at found
          cases found
          exact .literal_of_ne (by decide) rfl (.finish _)
  | case7 quoting notSingle next behind taken ih =>
      obtain ⟨later, found, rfl⟩ := exists_of_map_eq_ok unquotes
      exact .escaped notSingle taken (ih found)
  | case8 quoting notSingle next behind idle ih =>
      obtain ⟨later, found, rfl⟩ := exists_of_map_eq_ok unquotes
      exact .idleBackslash notSingle idle (ih found)
  | case9 quoting rest notSingle part after found notBackslash ih =>
      obtain ⟨later, unquoted, rfl⟩ := exists_of_map_eq_ok unquotes
      obtain ⟨name, braced, rfl⟩ := exists_of_reference? found
      have names := exists_reference?_iff.mp ⟨after, found⟩
      obtain ⟨body, rfl, spelled, chars⟩ := append_of_reference? found
      exact .reference (isLive_guard notSingle) names spelled chars (ih unquoted)
  | case10 quoting rest notSingle missing notBackslash ih =>
      obtain ⟨later, found, rfl⟩ := exists_of_map_eq_ok unquotes
      have parted := ih found
      have namesNothing (name : Text) (braced : Bool) : ¬ Names rest name braced := by
        intro names
        obtain ⟨after, refers⟩ := exists_reference?_iff.mpr names
        rw [missing] at refers
        cases refers
      cases quoting with
      | single => exact absurd rfl notSingle
      | bare | double => exact .literal rfl (fun _ _ => namesNothing) parted
  | case11 quoting rest notSingle notBackslash notDollar ih =>
      have parted := ih unquotes
      cases quoting with
      | single => exact absurd rfl notSingle
      | bare | double => exact .dropped rfl parted
  | case12 quoting c rest notSingle notBackslash notDollar notDouble opens ih =>
      simp only [Bool.and_eq_true, decide_eq_true_eq] at opens
      obtain ⟨rfl, rfl⟩ := opens
      exact .dropped rfl (ih unquotes)
  | case13 quoting c rest notSingle notBackslash notDollar notDouble stays ih =>
      obtain ⟨later, found, rfl⟩ := exists_of_map_eq_ok unquotes
      exact .plain notSingle ⟨notBackslash, notDollar, notDouble⟩ stays (ih found)

/-! ## Dollar signs that refer -/

namespace Guard

variable {guard : Guard}

/-- The character of this number in a raw word is a dollar sign that neither single quotes nor a
backslash guard, and behind it stands a name. -/
def RefersAt (guard : Guard) (raw : Text) (number : Nat) : Prop :=
  ∃ before after, raw = before ++ '$' :: after ∧ before.length = number ∧
    (guard.behind before).isLive = true ∧ ∃ name braced, Names after name braced

/-- A reference has the name behind the dollar sign of this number, and it takes up the bytes that
the dollar sign and the name have in the text of the word, which begins at `start`. -/
def Records (guard : Guard) (start : Nat) (raw : Text) (number : Nat) (reference : Reference) :
    Prop :=
  ∃ before after braced, raw = before ++ '$' :: after ∧ before.length = number ∧
    Names after reference.name braced ∧
    reference.start = start + Utf8.size (guard.kept before ('$' :: after)) ∧
    reference.stop =
      reference.start + Utf8.size (Part.reference reference.name braced).text

/-- The references traced back to the dollar signs they come from, one after the other. -/
structure Traces (guard : Guard) (start : Nat) (raw : Text) (numbers : List Nat)
    (references : List Reference) : Prop where
  inOrder : numbers.Pairwise (· < ·)
  refers : ∀ number, number ∈ numbers ↔ guard.RefersAt raw number
  records : List.Forall₂ (guard.Records start raw) numbers references

theorem refersAt_length_iff {before after : Text} :
    guard.RefersAt (before ++ '$' :: after) before.length ↔
      (guard.behind before).isLive = true ∧ ∃ name braced, Names after name braced := by
  constructor
  · rintro ⟨first, second, split, counted, live, names⟩
    obtain ⟨rfl, rest⟩ := List.append_inj split counted.symm
    obtain ⟨-, rfl⟩ := List.cons.inj rest
    exact ⟨live, names⟩
  · rintro ⟨live, names⟩
    exact ⟨before, after, rfl, rfl, live, names⟩

theorem refersAt_zero_iff {c : Char} {rest : Text} :
    guard.RefersAt (c :: rest) 0 ↔
      c = '$' ∧ guard.isLive = true ∧ ∃ name braced, Names rest name braced := by
  constructor
  · rintro ⟨before, after, split, empty, live, names⟩
    obtain rfl := List.length_eq_zero_iff.mp empty
    obtain ⟨rfl, rfl⟩ := List.cons.inj split
    exact ⟨rfl, live, names⟩
  · rintro ⟨rfl, live, names⟩
    exact ⟨[], rest, rfl, rfl, live, names⟩

theorem refersAt_succ_iff {c : Char} {rest : Text} {number : Nat} :
    guard.RefersAt (c :: rest) (number + 1) ↔ (guard.next c).RefersAt rest number := by
  constructor
  · rintro ⟨before, after, split, counted, live, names⟩
    cases before with
    | nil => cases counted
    | cons first before =>
        obtain ⟨rfl, rfl⟩ := List.cons.inj split
        exact ⟨before, after, rfl, Nat.succ.inj counted, live, names⟩
  · rintro ⟨before, after, rfl, rfl, live, names⟩
    exact ⟨c :: before, after, rfl, rfl, live, names⟩

/-- One more character in front moves a reference by what the character adds to the text. -/
theorem Records.cons {start : Nat} {c : Char} {rest : Text} {number : Nat} {reference : Reference}
    (records : (guard.next c).Records
      (start + Utf8.size (if guard.drops c rest.head? then [] else [c])) rest number reference) :
    guard.Records start (c :: rest) (number + 1) reference := by
  obtain ⟨before, after, braced, rfl, rfl, names, starts, stops⟩ := records
  refine ⟨c :: before, after, braced, rfl, rfl, names, ?_, stops⟩
  rw [starts, kept_cons, Utf8.size_append, Nat.add_assoc]

/-- A character in front that refers to nothing changes none of the references. -/
theorem Traces.cons {start : Nat} {c : Char} {rest : Text} {numbers : List Nat}
    {references : List Reference} (idle : ¬ guard.RefersAt (c :: rest) 0)
    (traces : (guard.next c).Traces
      (start + Utf8.size (if guard.drops c rest.head? then [] else [c])) rest numbers references) :
    guard.Traces start (c :: rest) (numbers.map (· + 1)) references where
  inOrder := List.pairwise_map.mpr (traces.inOrder.imp fun before => Nat.succ_lt_succ before)
  refers number := by
    cases number with
    | zero => simp [idle]
    | succ number => simp [refersAt_succ_iff, traces.refers]
  records := List.forall₂_map_left_iff.mpr (traces.records.imp fun _ _ => Records.cons)

/-- Outside single quotes a character that is no quote and no backslash leaves everything as it
is. -/
theorem next_of_isLive {c : Char} (live : guard.isLive = true)
    (plain : c ≠ '\'' ∧ c ≠ '"' ∧ c ≠ '\\') : guard.next c = guard := by
  cases guard with
  | bare => rw [next, if_neg plain.1, if_neg plain.2.1, if_neg plain.2.2]
  | double => rw [next, if_neg plain.2.1, if_neg plain.2.2]
  | escape | single | doubleEscape => cases live

theorem drops_of_isLive {c : Char} (live : guard.isLive = true)
    (plain : c ≠ '\'' ∧ c ≠ '"' ∧ c ≠ '\\') (next : Option Char) :
    guard.drops c next = false := by
  cases guard with
  | bare | double => simp [drops, plain]
  | escape | single | doubleEscape => cases live

theorem ne_of_isReferenceChar {c other : Char} (char : isReferenceChar c = true)
    (noPart : isReferenceChar other = false) : c ≠ other := by
  rintro rfl
  rw [char] at noPart
  cases noPart

theorem plain_of_isReferenceChar {c : Char} (char : isReferenceChar c = true) :
    c ≠ '\'' ∧ c ≠ '"' ∧ c ≠ '\\' :=
  ⟨ne_of_isReferenceChar char (by decide), ne_of_isReferenceChar char (by decide),
    ne_of_isReferenceChar char (by decide)⟩

theorem drops_dollar (guard : Guard) (next : Option Char) : guard.drops '$' next = false := by
  cases guard <;> rfl

/-- A dollar sign in front that refers to a variable is one more reference. -/
theorem Traces.reference {start : Nat} {rest name : Text} {braced : Bool} {numbers : List Nat}
    {references : List Reference} (live : guard.isLive = true) (names : Names rest name braced)
    (traces : guard.Traces (start + Utf8.size ['$']) rest numbers references) :
    guard.Traces start ('$' :: rest) (0 :: numbers.map (· + 1))
      (⟨name, start, start + Utf8.size (Part.reference name braced).text⟩ :: references) where
  inOrder := by
    refine List.pairwise_cons.mpr ⟨?_, List.pairwise_map.mpr (traces.inOrder.imp Nat.succ_lt_succ)⟩
    simp
  refers number := by
    cases number with
    | zero => exact iff_of_true List.mem_cons_self (refersAt_zero_iff.mpr ⟨rfl, live, _, _, names⟩)
    | succ number => simp [refersAt_succ_iff, traces.refers, next_of_isLive live]
  records := by
    refine .cons ⟨[], rest, braced, rfl, rfl, names, rfl, rfl⟩ (List.forall₂_map_left_iff.mpr ?_)
    refine traces.records.imp fun number reference records => Records.cons ?_
    rwa [next_of_isLive live (by decide), drops_dollar]

/-- The characters of a name and its braces are kept, and nothing among them refers to anything. -/
theorem Traces.append_body {start : Nat} {body rest : Text} {numbers : List Nat}
    {references : List Reference} (live : guard.isLive = true)
    (chars : ∀ c ∈ body, isReferenceChar c = true)
    (traces : guard.Traces (start + Utf8.size body) rest numbers references) :
    ∃ numbers, guard.Traces start (body ++ rest) numbers references := by
  induction body generalizing start with
  | nil => exact ⟨numbers, traces⟩
  | cons c body ih =>
      obtain ⟨here, behind⟩ := List.forall_mem_cons.mp chars
      have plain := plain_of_isReferenceChar here
      rw [Utf8.size_cons, ← Nat.add_assoc] at traces
      obtain ⟨numbers, later⟩ := ih behind traces
      refine ⟨numbers.map (· + 1), .cons ?_ ?_⟩
      · intro refers
        exact ne_of_isReferenceChar here (by decide) (refersAt_zero_iff.mp refers).1
      · rw [next_of_isLive live plain, drops_of_isLive live plain]
        exact later

end Guard

/-- The references of a word are those of its dollar signs that refer to variables. -/
theorem Parted.exists_traces {guard : Guard} {raw : Text} {word : Word}
    (parted : Parted guard raw word) (start : Nat) :
    ∃ numbers, guard.Traces start raw numbers (Word.referencesFrom start word) := by
  induction parted generalizing start with
  | finish guard =>
      refine ⟨[], .nil, fun number => ⟨fun member => absurd member List.not_mem_nil, ?_⟩, .nil⟩
      rintro ⟨before, after, split, -⟩
      cases before <;> cases split
  | dropped drops later ih =>
      obtain ⟨numbers, traces⟩ := ih start
      refine ⟨numbers.map (· + 1), .cons ?_ (by rwa [drops])⟩
      rw [Guard.refersAt_zero_iff]
      rintro ⟨rfl, -⟩
      rw [Guard.drops_dollar] at drops
      cases drops
  | literal keeps idle later ih =>
      obtain ⟨numbers, traces⟩ := ih _
      refine ⟨numbers.map (· + 1), .cons ?_ (by rwa [keeps])⟩
      rw [Guard.refersAt_zero_iff]
      rintro ⟨dollar, live, name, braced, names⟩
      exact idle dollar live name braced names
  | @reference guard body rest name braced word live names spelled chars later ih =>
      obtain ⟨numbers, traces⟩ := ih (start + Utf8.size (Part.reference name braced).text)
      rw [Word.referencesFrom]
      generalize Word.referencesFrom _ word = references at traces ⊢
      have taken : start + Utf8.size (Part.reference name braced).text =
          start + Utf8.size ['$'] + Utf8.size body := by
        rw [spelled, Nat.add_assoc, ← Utf8.size_append, List.singleton_append]
      rw [taken] at traces
      obtain ⟨numbers, whole⟩ := Guard.Traces.append_body live chars traces
      exact ⟨_, whole.reference live names⟩

/-! ## Dollar signs that do not -/

namespace Guard

variable {guard : Guard} {body : Text}

/-- The guard is the same behind a name and its braces as before. -/
theorem behind_body (live : guard.isLive = true) (chars : ∀ c ∈ body, isReferenceChar c = true) :
    guard.behind body = guard := by
  induction body with
  | nil => rfl
  | cons c body ih =>
      obtain ⟨here, behind⟩ := List.forall_mem_cons.mp chars
      rw [behind_cons, next_of_isLive live (plain_of_isReferenceChar here), ih behind]

/-- All characters of a name and its braces are kept. -/
theorem kept_body (live : guard.isLive = true) (chars : ∀ c ∈ body, isReferenceChar c = true)
    (more : Text) : guard.kept body more = body := by
  induction body with
  | nil => rfl
  | cons c body ih =>
      obtain ⟨here, behind⟩ := List.forall_mem_cons.mp chars
      have plain := plain_of_isReferenceChar here
      rw [kept_cons, next_of_isLive live plain, drops_of_isLive live plain, ih behind]
      rfl

/-- A reference leaves the guard as it is. -/
theorem behind_dollar (live : guard.isLive = true) (chars : ∀ c ∈ body, isReferenceChar c = true) :
    guard.behind ('$' :: body) = guard := by
  rw [behind_cons, next_of_isLive live (by decide), behind_body live chars]

/-- A reference is kept as it is written. -/
theorem kept_dollar (live : guard.isLive = true) (chars : ∀ c ∈ body, isReferenceChar c = true)
    (more : Text) : guard.kept ('$' :: body) more = '$' :: body := by
  rw [kept_cons, drops_dollar, next_of_isLive live (by decide), kept_body live chars]
  rfl

theorem RefersAt.append (piece : Text) {rest : Text} {number : Nat}
    (refers : (guard.behind piece).RefersAt rest number) :
    guard.RefersAt (piece ++ rest) (piece.length + number) := by
  obtain ⟨before, after, rfl, rfl, live, names⟩ := refers
  refine ⟨piece ++ before, after, (List.append_assoc _ _ _).symm, List.length_append, ?_, names⟩
  rwa [behind_append]

end Guard

/-- A dollar sign in a text that begins with a name and its braces stands behind them. -/
theorem exists_append_of_body {body rest before after : Text}
    (chars : ∀ c ∈ body, isReferenceChar c = true) (same : before ++ '$' :: after = body ++ rest) :
    ∃ further, before = body ++ further ∧ rest = further ++ '$' :: after := by
  rcases List.append_eq_append_iff.mp same with ⟨inBody, rfl, behind⟩ | split
  · cases inBody with
    | nil => exact ⟨[], by simp, behind.symm⟩
    | cons d inBody =>
        obtain ⟨rfl, -⟩ := List.cons.inj behind
        have isBody := chars '$' (List.mem_append_right _ List.mem_cons_self)
        exact absurd rfl (Guard.ne_of_isReferenceChar isBody (by decide))
  · exact split

/-- A dollar sign that refers to nothing is a literal character of the word, behind what is kept of
the characters before it. -/
theorem Parted.exists_literal {guard : Guard} {before after : Text} {word : Word}
    (parted : Parted guard (before ++ '$' :: after) word)
    (idle : ¬ guard.RefersAt (before ++ '$' :: after) before.length) :
    ∃ earlier later, word = earlier ++ .literal '$' :: later ∧
      Word.text earlier = guard.kept before ('$' :: after) := by
  generalize same : before ++ '$' :: after = raw at parted idle
  induction parted generalizing before with
  | finish guard => cases before <;> cases same
  | @dropped guard c rest word drops parted ih =>
      cases before with
      | nil =>
          obtain ⟨rfl, rfl⟩ := List.cons.inj same
          rw [Guard.drops_dollar] at drops
          cases drops
      | cons first before =>
          rw [List.cons_append] at same
          obtain ⟨rfl, rfl⟩ := List.cons.inj same
          obtain ⟨earlier, later, rfl, text⟩ := ih rfl (mt Guard.refersAt_succ_iff.mpr idle)
          refine ⟨earlier, later, rfl, ?_⟩
          rw [text, Guard.kept_cons, drops]
          rfl
  | @literal guard c rest word keeps noName parted ih =>
      cases before with
      | nil =>
          obtain ⟨rfl, rfl⟩ := List.cons.inj same
          exact ⟨[], word, rfl, rfl⟩
      | cons first before =>
          rw [List.cons_append] at same
          obtain ⟨rfl, rfl⟩ := List.cons.inj same
          obtain ⟨earlier, later, rfl, text⟩ := ih rfl (mt Guard.refersAt_succ_iff.mpr idle)
          refine ⟨.literal first :: earlier, later, rfl, ?_⟩
          rw [Guard.kept_cons, keeps, ← text]
          rfl
  | @reference guard body rest name braced word live names spelled chars parted ih =>
      have passed := Guard.behind_dollar live chars
      cases before with
      | nil =>
          obtain ⟨-, rfl⟩ := List.cons.inj same
          exact absurd (Guard.refersAt_zero_iff.mpr ⟨rfl, live, name, braced, names⟩) idle
      | cons first before =>
          rw [List.cons_append] at same
          obtain ⟨rfl, behindDollar⟩ := List.cons.inj same
          obtain ⟨further, rfl, rfl⟩ := exists_append_of_body chars behindDollar
          obtain ⟨earlier, later, rfl, text⟩ := ih rfl fun refers => idle (by
            have whole := Guard.RefersAt.append ('$' :: body) (passed.symm ▸ refers)
            rwa [← List.length_append] at whole)
          refine ⟨.reference name braced :: earlier, later, rfl, ?_⟩
          show (Part.reference name braced).text ++ Word.text earlier = _
          rw [spelled, text, ← List.cons_append, Guard.kept_append, passed,
            Guard.kept_dollar live chars]

namespace Word

/-- The references of two words one behind the other. -/
theorem referencesFrom_append (start : Nat) (word other : Word) :
    referencesFrom start (word ++ other) =
      referencesFrom start word ++ referencesFrom (start + Utf8.size (text word)) other := by
  induction word generalizing start with
  | nil => rfl
  | cons part word ih =>
      have whole : start + Utf8.size part.text + Utf8.size (text word) =
          start + Utf8.size (text (part :: word)) := by
        rw [Nat.add_assoc, ← Utf8.size_append]
        rfl
      cases part with
      | literal c => rw [List.cons_append, referencesFrom, ih, referencesFrom, whole]
      | reference name braced =>
          rw [List.cons_append, referencesFrom, ih, referencesFrom, whole, List.cons_append]

/-- No reference ends behind the word it is in. -/
theorem le_size_of_mem_referencesFrom {start : Nat} {word : Word} {reference : Reference}
    (member : reference ∈ referencesFrom start word) :
    reference.stop ≤ start + Utf8.size (text word) := by
  induction word generalizing start with
  | nil => cases member
  | cons part word ih =>
      have whole : start + Utf8.size (text (part :: word)) =
          start + Utf8.size part.text + Utf8.size (text word) := by
        rw [Nat.add_assoc, ← Utf8.size_append]
        rfl
      rw [whole]
      cases part with
      | literal c => exact ih member
      | reference name braced =>
          rcases List.mem_cons.mp member with rfl | later
          · exact Nat.le_add_right _ _
          · exact ih later

end Word

/-- In a word that can be unquoted the dollar signs that refer to variables are those outside single
quotes and not behind a backslash that have a name right behind them, and each is recorded with the
longest such name and with its place in the text. All other dollar signs stand in the text outside
the references. The text is what quotes and backslashes at work leave of the raw word, whether it
refers to anything or not. -/
theorem references_are_live_dollars {raw : Text} {word : Word}
    (unquotes : Word.unquote raw = .ok word) :
    word.text = Guard.bare.kept raw [] ∧
      (∃ numbers : List Nat, numbers.Pairwise (· < ·) ∧
        (∀ number, number ∈ numbers ↔ Guard.bare.RefersAt raw number) ∧
        List.Forall₂ (Guard.bare.Records 0 raw) numbers word.references) ∧
      ∀ before after, raw = before ++ '$' :: after →
        ¬ Guard.bare.RefersAt raw before.length →
        (∃ more, word.text = Guard.bare.kept before ('$' :: after) ++ '$' :: more) ∧
          ∀ reference ∈ word.references,
            reference.stop ≤ Utf8.size (Guard.bare.kept before ('$' :: after)) ∨
              Utf8.size (Guard.bare.kept before ('$' :: after)) < reference.start := by
  have parted : Parted .bare raw word :=
    parted_of_unquoteFrom (Word.unquoteFrom_of_unquote unquotes)
  refine ⟨Word.text_eq_kept unquotes, ?_, ?_⟩
  · obtain ⟨numbers, inOrder, refers, records⟩ := parted.exists_traces 0
    exact ⟨numbers, inOrder, refers, records⟩
  · rintro before after rfl idle
    obtain ⟨earlier, later, rfl, kept⟩ := parted.exists_literal idle
    rw [← kept]
    refine ⟨⟨Word.text later, ?_⟩, fun reference member => ?_⟩
    · simp [Word.text, Part.text]
    · rw [Word.references, Word.referencesFrom_append, Nat.zero_add] at member
      rcases List.mem_append.mp member with inEarlier | inLater
      · have ends := Word.le_size_of_mem_referencesFrom inEarlier
        rw [Nat.zero_add] at ends
        exact .inl ends
      · exact .inr (Word.le_of_mem_referencesFrom inLater)

/-- Dollar signs behind a backslash, in double quotes, in single quotes and in front of another
one. The one in single quotes is a character of the text. -/
theorem two_of_five_dollars_refer :
    let raw := "\"\\$a$b\"'$c'$$\x7be\x7d".toList
    let word : Word := [.literal '$', .literal 'a', .reference ['b'] false, .literal '$',
      .literal 'c', .literal '$', .reference ['e'] true]
    Word.unquote raw = .ok word ∧ word.references = [⟨['b'], 2, 4⟩, ⟨['e'], 7, 11⟩] ∧
      (∃ numbers : List Nat, numbers.Pairwise (· < ·) ∧
        (∀ number, number ∈ numbers ↔ Guard.bare.RefersAt raw number) ∧
        List.Forall₂ (Guard.bare.Records 0 raw) numbers word.references) ∧
      ∃ more, word.text = "$a$b".toList ++ '$' :: more := by
  intro raw word
  have unquotes : Word.unquote raw = .ok word := by decide +kernel
  obtain ⟨-, traced, others⟩ := references_are_live_dollars unquotes
  let before := "\"\\$a$b\"'".toList
  let after := "c'$$\x7be\x7d".toList
  have split : raw = before ++ '$' :: after := by decide +kernel
  have guarded : ¬ Guard.bare.RefersAt raw before.length := by
    rw [split, Guard.refersAt_length_iff]
    exact fun refers => absurd refers.1 (by decide)
  obtain ⟨literal, -⟩ := others before after split guarded
  exact ⟨unquotes, by decide +kernel, traced, literal⟩

end Errand.Shell
