/-
# Reading what is written

The smallest parts of a JSON text (a gap, a text between quotes, a numeral, a mark) are taken off
its front exactly as they are written. For most of them what stands behind does not matter. A
numeral has no mark at its end, so there the next character counts: it has to be one that may follow
a value.
-/
import Errand.Json.Skip
import Errand.Proofs.Json.Grammar
import Mathlib.Data.Char

namespace Errand.Json

/-! ## Gaps -/

theorem isGapText_nil : IsGapText [] := by
  intro c member
  cases member

/-- A gap of one space. -/
theorem isGapText_space : IsGapText [' '] := by
  intro c member
  rw [List.mem_singleton.mp member]
  exact List.mem_cons_self

/-- A text that starts with something other than a gap. -/
def StartsAtOnce (text : Text) : Prop := ∃ c rest, text = c :: rest ∧ isGap c = false

theorem StartsAtOnce.append {text : Text} (starts : StartsAtOnce text) (rest : Text) :
    StartsAtOnce (text ++ rest) := by
  obtain ⟨c, more, rfl, isNone⟩ := starts
  exact ⟨c, more ++ rest, rfl, isNone⟩

theorem isGap_of_mem {c : Char} (member : c ∈ [' ', '\n', '\t', '\r']) : isGap c = true := by
  have all : [' ', '\n', '\t', '\r'].all isGap = true := by decide
  exact List.all_eq_true.mp all c member

theorem skipGap_append {gap : Text} (isGapText : IsGapText gap) (text : Text) :
    skipGap (gap ++ text) = skipGap text := by
  rw [skipGap, List.dropWhile_append_of_pos fun c member => isGap_of_mem (isGapText c member)]
  rfl

theorem StartsAtOnce.skipGap_eq {text : Text} (starts : StartsAtOnce text) :
    skipGap text = text := by
  obtain ⟨c, rest, rfl, isNone⟩ := starts
  rw [skipGap, List.dropWhile_cons_of_neg (by simp [isNone])]

/-- A gap is skipped up to what starts behind it. -/
theorem skipGap_append_of_starts {gap text : Text} (isGapText : IsGapText gap)
    (starts : StartsAtOnce text) : skipGap (gap ++ text) = text := by
  rw [skipGap_append isGapText, starts.skipGap_eq]

/-- The mark that must come next is taken, with the gap in front of it. -/
theorem expectMark_append {gap : Text} (isGapText : IsGapText gap) {mark : Char}
    (isNone : isGap mark = false) (rest : Text) :
    expectMark mark (gap ++ mark :: rest) = .ok rest := by
  rw [expectMark, skipGap_append_of_starts isGapText ⟨mark, rest, rfl, isNone⟩]
  exact if_pos rfl

theorem expectWord_append (word rest : Text) : expectWord word (word ++ rest) = .ok rest := by
  induction word with
  | nil => cases rest <;> rfl
  | cons c word ih => exact (if_pos rfl).trans ih

/-! ## Texts between quotes -/

theorem hexDigit?_of_mem {c : Char} {value : Nat} (known : (c, value) ∈ hexDigits) :
    hexDigit? c = some value := by
  have all : ∀ digit ∈ hexDigits, hexDigit? digit.1 = some digit.2 := by decide
  exact all _ known

theorem letterEscape?_of_mem {letter c : Char} (known : (letter, c) ∈ shortEscapes) :
    letterEscape? letter = some c := by
  have all : ∀ pair ∈ shortEscapes, letterEscape? pair.1 = some pair.2 := by decide
  exact all _ known

/-- A code unit is read up to its last digit. -/
theorem IsUnit.codeUnit_append {digits : Text} {value : Nat} (written : IsUnit digits value)
    (rest : Text) : codeUnit (digits ++ rest) = .ok (value, rest) := by
  cases written with
  | digits first second third fourth =>
      simp only [List.cons_append, List.nil_append, codeUnit, fourDigits?, hexDigit?_of_mem first,
        hexDigit?_of_mem second, hexDigit?_of_mem third, hexDigit?_of_mem fourth]
      rfl

/-- A code unit that is a character is that character. -/
theorem IsUnit.unicodeEscape_append {digits : Text} {c : Char} (written : IsUnit digits c.toNat)
    (rest : Text) : unicodeEscape (digits ++ rest) = .ok (c, rest) := by
  have scalar : c.toNat < 0xD800 ∨ 0xDFFF < c.toNat ∧ c.toNat < 0x110000 := c.valid
  have notTrailing : isTrailing c.toNat = false := by
    simp only [isTrailing, Bool.and_eq_false_iff, decide_eq_false_iff_not]
    omega
  have notLeading : isLeading c.toNat = false := by
    simp only [isLeading, Bool.and_eq_false_iff, decide_eq_false_iff_not]
    omega
  rw [unicodeEscape, written.codeUnit_append]
  simp only [Except.bind, bind, notTrailing, notLeading, Char.ofNat_toNat]
  rfl

/-- The second half of a pair is read with the first. -/
theorem unicodeEscape_pair {leading trailing : Text} {unit second : Nat}
    (high : IsUnit leading unit) (low : IsUnit trailing second) (isFirst : isLeading unit = true)
    (isSecond : isTrailing second = true) (rest : Text) :
    unicodeEscape (leading ++ '\\' :: 'u' :: (trailing ++ rest)) =
      .ok (pairChar unit second, rest) := by
  have notTrailing : isTrailing unit = false := by
    simp only [isLeading, isTrailing, Bool.and_eq_true, Bool.and_eq_false_iff, decide_eq_true_eq,
      decide_eq_false_iff_not] at isFirst ⊢
    omega
  rw [unicodeEscape, high.codeUnit_append]
  simp only [Except.bind, bind, notTrailing, isFirst, low.codeUnit_append, isSecond]
  rfl

/-- The two code units of a character that does not fit one. -/
theorem pair_of_beyond {c : Char} (beyond : 0x10000 ≤ c.toNat) :
    let unit := 0xD800 + (c.toNat - 0x10000) / 0x400
    let second := 0xDC00 + (c.toNat - 0x10000) % 0x400
    isLeading unit = true ∧ isTrailing second = true ∧ pairChar unit second = c := by
  intro unit second
  have scalar : c.toNat < 0xD800 ∨ 0xDFFF < c.toNat ∧ c.toNat < 0x110000 := c.valid
  have together : (unit - 0xD800) * 0x400 + (second - 0xDC00) + 0x10000 = c.toNat := by omega
  refine ⟨?_, ?_, by rw [pairChar, together, Char.ofNat_toNat]⟩
  · simp only [isLeading, Bool.and_eq_true, decide_eq_true_eq]
    omega
  · simp only [isTrailing, Bool.and_eq_true, decide_eq_true_eq]
    omega

theorem characters_quote (strict : Bool) (rest : Text) :
    characters strict ('"' :: rest) = .ok ([], rest) := by
  rw [characters]
  exact if_pos rfl

theorem characters_plain (strict : Bool) {c : Char} (unescaped : IsUnescaped c) (rest : Text) :
    characters strict (c :: rest) =
      (characters strict rest).map fun (text, after) => (c :: text, after) := by
  obtain ⟨least, notQuote, notBackslash⟩ := unescaped
  rw [characters, if_neg notQuote, if_neg notBackslash, if_neg (Char.not_lt.mpr least)]

theorem characters_escape (strict : Bool) {sequence chars rest : Text}
    (means : escape strict sequence = .ok (chars, rest)) :
    characters strict ('\\' :: sequence) =
      (characters strict rest).map fun (text, after) => (chars ++ text, after) := by
  rw [characters, if_neg (by decide), if_pos rfl]
  split
  · next fault fails =>
      rw [means] at fails
      cases fails
  · next found behind reads =>
      rw [means] at reads
      cases reads
      rfl

theorem escape_short (strict : Bool) {letter c : Char} (known : (letter, c) ∈ shortEscapes)
    (rest : Text) : escape strict (letter :: rest) = .ok ([c], rest) := by
  have notUnit : letter ≠ 'u' := by
    rintro rfl
    revert known
    have all : ∀ pair ∈ shortEscapes, pair.1 ≠ 'u' := by decide
    exact fun known => all _ known rfl
  rw [escape, letterEscape?_of_mem known]
  exact fun isUnit => notUnit isUnit

/-- A character is read from any of its spellings. -/
theorem SpellsChar.characters_append {spelling : Text} {c : Char} (spells : SpellsChar spelling c)
    (rest : Text) :
    characters true (spelling ++ rest) =
      (characters true rest).map fun (text, after) => (c :: text, after) := by
  cases spells with
  | plain unescaped => exact characters_plain true unescaped rest
  | short known => exact characters_escape true (escape_short true known rest)
  | @unit digits c written =>
      have means : escape true ('u' :: (digits ++ rest)) = .ok ([c], rest) := by
        rw [escape, if_pos rfl, written.unicodeEscape_append]
        rfl
      exact characters_escape true means
  | @pair leading trailing c beyond high low =>
      have means : escape true ('u' :: (leading ++ '\\' :: 'u' :: (trailing ++ rest))) =
          .ok ([c], rest) := by
        obtain ⟨isFirst, isSecond, together⟩ := pair_of_beyond beyond
        rw [escape, if_pos rfl, unicodeEscape_pair high low isFirst isSecond, together]
        rfl
      simp only [List.append_assoc, List.cons_append]
      exact characters_escape true means

/-- A text is read from any of its spellings, up to the closing quote. -/
theorem Spells.characters_append {written text : Text} (spells : Spells written text)
    (rest : Text) : characters true (written ++ '"' :: rest) = .ok (text, rest) := by
  induction spells with
  | nil => exact characters_quote true rest
  | cons first _ ih =>
      rw [List.append_assoc, first.characters_append, ih]
      rfl

/-- Where nobody asks which text it is, everything of the right form is read up to the closing
quote. -/
theorem IsBody.exists_characters {body : Text} (isBody : IsBody body) (rest : Text) :
    ∃ text, characters false (body ++ '"' :: rest) = .ok (text, rest) := by
  induction isBody with
  | nil => exact ⟨[], characters_quote false rest⟩
  | plain unescaped _ ih =>
      obtain ⟨text, reads⟩ := ih
      rw [List.cons_append, characters_plain false unescaped, reads]
      exact ⟨_, rfl⟩
  | short known _ ih =>
      obtain ⟨text, reads⟩ := ih
      rw [List.cons_append, List.cons_append,
        characters_escape false (escape_short false known _), reads]
      exact ⟨_, rfl⟩
  | @unit digits more value written _ ih =>
      obtain ⟨text, reads⟩ := ih
      have means : escape false ('u' :: (digits ++ (more ++ '"' :: rest))) =
          .ok ([], more ++ '"' :: rest) := by
        rw [escape, if_neg (by decide), written.codeUnit_append]
        rfl
      simp only [List.append_assoc, List.cons_append]
      rw [characters_escape false means, reads]
      exact ⟨_, rfl⟩

/-- A control character is written as a code unit of four digits. -/
theorem isUnit_hex {n : Nat} (small : n < 32) : IsUnit (Decimal.hex 4 n) n := by
  have written : ∀ n < 32, Decimal.hex 4 n =
      ['0', '0', (n / 16).digitChar, (n % 16).digitChar] := by decide
  have digit : ∀ n < 16, (n.digitChar, n) ∈ hexDigits := by decide
  have zero : ('0', 0) ∈ hexDigits := by decide
  have value : ((0 * 16 + 0) * 16 + n / 16) * 16 + n % 16 = n := by omega
  rw [written n small]
  have unit : IsUnit _ (((0 * 16 + 0) * 16 + n / 16) * 16 + n % 16) :=
    .digits zero zero (digit (n / 16) (by omega)) (digit (n % 16) (by omega))
  rwa [value] at unit

/-- Every character is written in one of its spellings. -/
theorem spellsChar_quotedChar (c : Char) : SpellsChar (quotedChar c) c := by
  rw [quotedChar]
  split_ifs with isQuote isBackslash isBackspace isFormFeed isNewline isReturn isTab isControl
  · subst isQuote
    exact .short (by decide)
  · subst isBackslash
    exact .short (by decide)
  · subst isBackspace
    exact .short (by decide)
  · subst isFormFeed
    exact .short (by decide)
  · subst isNewline
    exact .short (by decide)
  · subst isReturn
    exact .short (by decide)
  · subst isTab
    exact .short (by decide)
  · exact .unit (isUnit_hex isControl)
  · exact .plain ⟨Char.not_lt.mp isControl, isQuote, isBackslash⟩

theorem spells_flatMap_quotedChar (text : Text) : Spells (text.flatMap quotedChar) text := by
  induction text with
  | nil => exact .nil
  | cons c text ih => exact .cons (spellsChar_quotedChar c) ih

/-! ## Numerals -/

/-- A text that may follow a value. -/
def Follows (rest : Text) : Prop :=
  ∀ c ∈ rest.head?, c ∈ [' ', '\n', '\t', '\r', ',', ']', '\x7d']

theorem follows_nil : Follows [] := by
  intro c member
  cases member

/-- A gap and a mark behind it may follow a value. -/
theorem follows_append {gap : Text} (isGapText : IsGapText gap) {rest : Text}
    (follows : Follows rest) : Follows (gap ++ rest) := by
  cases gap with
  | nil => exact follows
  | cons c gap =>
      intro d isHead
      obtain rfl := Option.some.inj isHead
      exact List.mem_append_left [',', ']', '\x7d'] (isGapText c List.mem_cons_self)

theorem follows_mark {mark : Char} (known : mark ∈ [',', ']', '\x7d']) (rest : Text) :
    Follows (mark :: rest) := by
  intro d isHead
  obtain rfl := Option.some.inj isHead
  exact List.mem_append_right [' ', '\n', '\t', '\r'] known

/-- What may follow a value does not go on with a numeral. -/
theorem Follows.ends {rest : Text} (follows : Follows rest) {c : Char} (isHead : c ∈ rest.head?) :
    c.isDigit = false ∧ c ≠ '.' ∧ c ≠ 'e' ∧ c ≠ 'E' := by
  have all : [' ', '\n', '\t', '\r', ',', ']', '\x7d'].all fun c =>
      decide (c.isDigit = false ∧ c ≠ '.' ∧ c ≠ 'e' ∧ c ≠ 'E') := by decide
  exact of_decide_eq_true (List.all_eq_true.mp all c (follows c isHead))

/-- Digits are read up to the first character that is none. -/
theorem IsDigits.digits_append {text : Text} (areDigits : IsDigits text) {rest : Text}
    (ends : ∀ c ∈ rest.head?, c.isDigit = false) : digits (text ++ rest) = .ok (text, rest) := by
  obtain ⟨some, all⟩ := areDigits
  have none : rest.takeWhile Char.isDigit = [] ∧ rest.dropWhile Char.isDigit = rest := by
    cases rest with
    | nil => exact ⟨rfl, rfl⟩
    | cons c rest => simp [ends c rfl]
  have taken : (text ++ rest).takeWhile Char.isDigit = text := by
    rw [List.takeWhile_append_of_pos all, none.1, List.append_nil]
  have left : (text ++ rest).dropWhile Char.isDigit = rest := by
    rw [List.dropWhile_append_of_pos all, none.2]
  obtain ⟨c, more, rfl⟩ := List.exists_cons_of_ne_nil some
  rw [digits.eq_def, taken, left]

theorem IsDigits.exists_cons {text : Text} (areDigits : IsDigits text) :
    ∃ c rest, text = c :: rest ∧ c.isDigit = true := by
  obtain ⟨c, rest, rfl⟩ := List.exists_cons_of_ne_nil areDigits.1
  exact ⟨c, rest, rfl, areDigits.2 c List.mem_cons_self⟩

theorem IsWhole.exists_cons {whole : Text} (isWhole : IsWhole whole) :
    ∃ c rest, whole = c :: rest ∧ c.isDigit = true := by
  cases isWhole with
  | zero => exact ⟨'0', [], rfl, rfl⟩
  | digits areDigits _ => exact areDigits.exists_cons

theorem IsWhole.wholePart_append {whole : Text} (isWhole : IsWhole whole) {rest : Text}
    (ends : ∀ c ∈ rest.head?, c.isDigit = false) :
    wholePart (whole ++ rest) = .ok (whole, rest) := by
  cases isWhole with
  | zero =>
      cases rest with
      | nil => rfl
      | cons c rest =>
          rw [wholePart.eq_def]
          exact if_neg (by simp [ends c rfl])
  | digits areDigits proper =>
      rw [wholePart.eq_def]
      split
      · next c more same =>
          obtain ⟨d, text, rfl, -⟩ := areDigits.exists_cons
          obtain ⟨rfl, -⟩ := List.cons.inj same
          exact absurd rfl proper
      · exact areDigits.digits_append ends

theorem decimalPart_of_ends {rest : Text} (ends : ∀ c ∈ rest.head?, c.isDigit = false ∧ c ≠ '.') :
    decimalPart rest = .ok (none, rest) := by
  rw [decimalPart.eq_def]
  split
  · next more => exact absurd rfl (ends '.' rfl).2
  · rfl

theorem IsDecimals.exists_decimalPart {decimals : Text} (isDecimals : IsDecimals decimals)
    {rest : Text} (ends : ∀ c ∈ rest.head?, c.isDigit = false ∧ c ≠ '.') :
    ∃ found, decimalPart (decimals ++ rest) = .ok (found, rest) := by
  cases isDecimals with
  | absent => exact ⟨none, decimalPart_of_ends ends⟩
  | present areDigits =>
      rw [List.cons_append, decimalPart, areDigits.digits_append fun c isHead => (ends c isHead).1]
      exact ⟨_, rfl⟩

theorem exists_signedExponent {sign text rest : Text} (signed : sign ∈ [[], ['+'], ['-']])
    (areDigits : IsDigits text) (ends : ∀ c ∈ rest.head?, c.isDigit = false) :
    ∃ value, signedExponent (sign ++ text ++ rest) = .ok (value, rest) := by
  simp only [List.mem_cons, List.not_mem_nil, or_false] at signed
  rcases signed with rfl | rfl | rfl
  · obtain ⟨c, more, rfl, isDigit⟩ := areDigits.exists_cons
    rw [List.nil_append, signedExponent.eq_def]
    split
    · next same =>
        obtain ⟨rfl, -⟩ := List.cons.inj same
        cases isDigit
    · next same =>
        obtain ⟨rfl, -⟩ := List.cons.inj same
        cases isDigit
    · simp only [areDigits.digits_append ends]
      exact ⟨_, rfl⟩
  · simp only [List.cons_append, List.nil_append, signedExponent, areDigits.digits_append ends]
    exact ⟨_, rfl⟩
  · simp only [List.cons_append, List.nil_append, signedExponent, areDigits.digits_append ends]
    exact ⟨_, rfl⟩

theorem Follows.exponentPart_eq {rest : Text} (follows : Follows rest) :
    exponentPart rest = .ok (none, rest) := by
  cases rest with
  | nil => rfl
  | cons c rest =>
      obtain ⟨-, -, notSmall, notLarge⟩ := follows.ends (c := c) rfl
      rw [exponentPart]
      exact if_neg (by simp [notSmall, notLarge])

theorem IsExponent.exists_exponentPart {exponent : Text} (isExponent : IsExponent exponent)
    {rest : Text} (follows : Follows rest) :
    ∃ found, exponentPart (exponent ++ rest) = .ok (found, rest) := by
  cases isExponent with
  | absent => exact ⟨none, follows.exponentPart_eq⟩
  | @present letter sign text marked signed areDigits =>
      obtain ⟨value, reads⟩ :=
        exists_signedExponent signed areDigits fun c isHead => (follows.ends isHead).1
      have isMark : (letter = 'e' || letter = 'E') = true := by
        simpa using marked
      rw [List.cons_append, List.cons_append, exponentPart, if_pos isMark, reads]
      exact ⟨_, rfl⟩

/-- What stands behind the whole part does not go on with it. -/
theorem head_decimals_exponent {decimals exponent rest : Text} (isDecimals : IsDecimals decimals)
    (isExponent : IsExponent exponent) (follows : Follows rest) :
    (∀ c ∈ (decimals ++ (exponent ++ rest)).head?, c.isDigit = false) ∧
      ∀ c ∈ (exponent ++ rest).head?, c.isDigit = false ∧ c ≠ '.' := by
  have behind : ∀ c ∈ (exponent ++ rest).head?, c.isDigit = false ∧ c ≠ '.' := by
    cases isExponent with
    | absent => exact fun c isHead => ⟨(follows.ends isHead).1, (follows.ends isHead).2.1⟩
    | present marked =>
        intro c isHead
        obtain rfl := Option.some.inj isHead
        have all : ['e', 'E'].all fun c => decide (c.isDigit = false ∧ c ≠ '.') := by decide
        exact of_decide_eq_true (List.all_eq_true.mp all _ marked)
  refine ⟨?_, behind⟩
  cases isDecimals with
  | absent => exact fun c isHead => (behind c isHead).1
  | present =>
      intro c isHead
      obtain rfl := Option.some.inj isHead
      rfl

/-- A numeral without a sign is read from its parts. -/
theorem IsWhole.numeral_append {whole text behind rest : Text} {fraction : Option Text}
    {power : Option Int} (isWhole : IsWhole whole)
    (readsWhole : wholePart (whole ++ text) = .ok (whole, text))
    (readsFraction : decimalPart text = .ok (fraction, behind))
    (readsPower : exponentPart behind = .ok (power, rest)) :
    numeral (whole ++ text) = .ok (⟨false, whole, fraction, power⟩, rest) := by
  obtain ⟨c, more, rfl, isDigit⟩ := isWhole.exists_cons
  rw [numeral]
  · simp only [Except.bind, bind, readsWhole, readsFraction, readsPower]
    rfl
  · intro unsigned same
    obtain ⟨rfl, -⟩ := List.cons.inj same
    cases isDigit

/-- A numeral is read to its end. -/
theorem IsNumeral.exists_numeral {text : Text} (isNumeral : IsNumeral text) {rest : Text}
    (follows : Follows rest) : ∃ found, numeral (text ++ rest) = .ok (found, rest) := by
  cases isNumeral with
  | @parts sign whole decimals exponent signed isWhole isDecimals isExponent =>
      obtain ⟨ends, behind⟩ := head_decimals_exponent isDecimals isExponent follows
      obtain ⟨fraction, readsFraction⟩ := isDecimals.exists_decimalPart behind
      obtain ⟨power, readsPower⟩ := isExponent.exists_exponentPart follows
      have readsWhole := isWhole.wholePart_append ends
      simp only [List.mem_cons, List.not_mem_nil, or_false] at signed
      rcases signed with rfl | rfl
      · simp only [List.nil_append, List.append_assoc]
        exact ⟨_, isWhole.numeral_append readsWhole readsFraction readsPower⟩
      · refine ⟨⟨true, whole, fraction, power⟩, ?_⟩
        simp only [List.cons_append, List.nil_append, List.append_assoc, numeral, Except.bind, bind,
          readsWhole, readsFraction, readsPower]
        rfl

/-- A numeral starts with a sign or a digit. -/
theorem IsNumeral.exists_cons {text : Text} (isNumeral : IsNumeral text) :
    ∃ c rest, text = c :: rest ∧ (c = '-' || c.isDigit) = true := by
  cases isNumeral with
  | @parts sign whole decimals exponent signed isWhole isDecimals isExponent =>
      obtain ⟨c, more, rfl, isDigit⟩ := isWhole.exists_cons
      simp only [List.mem_cons, List.not_mem_nil, or_false] at signed
      rcases signed with rfl | rfl
      · exact ⟨c, _, rfl, by simp [isDigit]⟩
      · exact ⟨'-', _, rfl, rfl⟩

end Errand.Json
