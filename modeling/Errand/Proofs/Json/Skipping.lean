/-
# Values that are skipped

Whatever value stands under a name that nobody asks for, reading goes on right behind it. The reader
does not follow the nesting of the value by recursion: it keeps the brackets that are open in a list
and goes from one value without brackets to the next. So the statement about a value has to hold
inside any brackets. From behind a value the reader goes on as from behind its last part, and that is
what the induction over its form carries.
-/
import Errand.Proofs.Json.Tokens
import Errand.Proofs.Outcomes

namespace Errand.Json

/-! ## Reading makes the text shorter -/

theorem skipGap_length_le (text : Text) : (skipGap text).length ≤ text.length :=
  (List.dropWhile_suffix isGap).length_le

theorem expectMark_shorter {mark : Char} {text rest : Text}
    (reads : expectMark mark text = .ok rest) : rest.length < text.length := by
  have noLonger := skipGap_length_le text
  rw [expectMark] at reads
  split at reads
  · cases reads
  · next c behind found =>
      rw [found, List.length_cons] at noLonger
      split at reads
      · cases reads
        omega
      · cases reads

theorem characters_shorter {strict : Bool} {text found rest : Text}
    (reads : characters strict text = .ok (found, rest)) : rest.length < text.length := by
  fun_induction characters strict text generalizing found with
  | case1 => cases reads
  | case2 =>
      cases reads
      exact Nat.lt_succ_self _
  | case3 => cases reads
  | case4 more chars behind means _ ih =>
      obtain ⟨⟨text, after⟩, inner, same⟩ := exists_of_map_eq_ok reads
      cases same
      have first := escape_shorter means
      have later := ih inner
      rw [List.length_cons]
      omega
  | case5 => cases reads
  | case6 c more _ _ _ ih =>
      obtain ⟨⟨text, after⟩, inner, same⟩ := exists_of_map_eq_ok reads
      cases same
      exact Nat.lt_succ_of_lt (ih inner)

theorem key_shorter {strict : Bool} {text name rest : Text}
    (reads : key strict text = .ok (name, rest)) : rest.length < text.length := by
  obtain ⟨behind, marked, named⟩ := exists_of_bind_eq_ok reads
  exact Nat.lt_trans (characters_shorter named) (expectMark_shorter marked)

theorem skipKey_length_le {frame : Frame} {text rest : Text}
    (reads : frame.skipKey text = .ok rest) : rest.length ≤ text.length := by
  cases frame with
  | list =>
      cases reads
      exact Nat.le_refl _
  | object =>
      obtain ⟨⟨name, behind⟩, named, marked⟩ := exists_of_bind_eq_ok reads
      exact Nat.le_of_lt (Nat.lt_trans (expectMark_shorter marked) (key_shorter named))

theorem afterValue_length_le {frames left : List Frame} {text rest : Text}
    (goesOn : afterValue frames text = .ok (left, rest)) : rest.length ≤ text.length := by
  induction frames generalizing text with
  | nil =>
      cases goesOn
      exact Nat.le_refl _
  | cons frame frames ih =>
      have noLonger := skipGap_length_le text
      rw [afterValue] at goesOn
      split at goesOn
      · cases goesOn
      · next c behind found =>
          rw [found, List.length_cons] at noLonger
          split at goesOn
          · have := ih goesOn
            omega
          · split at goesOn
            · obtain ⟨next, keyed, same⟩ := exists_of_map_eq_ok goesOn
              cases same
              have := skipKey_length_le keyed
              omega
            · cases goesOn

/-! ## From one step to the next -/

/-- What follows a value that is partly read: the brackets still open, and the text of the next
value in the innermost of them. -/
def goOn : Except Fault (List Frame × Text) → Except Fault Text
  | .error fault => .error fault
  | .ok ([], rest) => .ok rest
  | .ok (frame :: frames, rest) => skipFrom (frame :: frames) rest

/-- A step that makes the text shorter is followed by the next. -/
theorem skipFrom_of_step {frames : List Frame} {text : Text}
    {outcome : Except Fault (List Frame × Text)} (step : skipStep frames text = outcome)
    (shorter : ∀ left rest, outcome = .ok (left, rest) → rest.length < text.length) :
    skipFrom frames text = goOn outcome := by
  rw [skipFrom, step]
  match outcome with
  | .error fault => rfl
  | .ok ([], rest) => rfl
  | .ok (frame :: left, rest) => exact if_pos (shorter _ _ rfl)

/-- A value inside any brackets is read to its end. -/
def IsSkipped (value : Text) : Prop :=
  ∀ frames gap rest, IsGapText gap → Follows rest →
    skipFrom frames (gap ++ (value ++ rest)) = goOn (afterValue frames rest)

/-- How a value starts: at once, and not like the end of a list. -/
def StartsValue (value : Text) : Prop := ∃ c rest, value = c :: rest ∧ isGap c = false ∧ c ≠ ']'

/-! ## Values without brackets -/

/-- A value without brackets is skipped in one step. -/
theorem isSkipped_of_scalar {value : Text} (starts : StartsAtOnce value)
    (noBracket : ∀ c ∈ value.head?, c ≠ '[' ∧ c ≠ '\x7b')
    (skips : ∀ rest, Follows rest → skipScalar (value ++ rest) = .ok rest) : IsSkipped value := by
  intro frames gap rest isGapText follows
  obtain ⟨c, more, rfl, isNone⟩ := starts
  obtain ⟨notList, notObject⟩ := noBracket c rfl
  have step : skipStep frames (gap ++ (c :: more ++ rest)) = afterValue frames rest := by
    rw [skipStep, skipGap_append_of_starts isGapText (.append ⟨c, more, rfl, isNone⟩ rest)]
    split
    · next same => exact absurd (List.cons.inj same).1 notList
    · next same => exact absurd (List.cons.inj same).1 notObject
    · rw [skips rest follows]
      rfl
  refine skipFrom_of_step step fun left behind goesOn => ?_
  have noLonger := afterValue_length_le goesOn
  simp only [List.length_append, List.length_cons]
  omega

theorem isSkipped_word {text : Text}
    (known : text ∈ ["null".toList, "true".toList, "false".toList]) : IsSkipped text := by
  have forms : text = "null".toList ∨ text = "true".toList ∨ text = "false".toList := by
    simpa using known
  rcases forms with rfl | rfl | rfl
  · exact isSkipped_of_scalar ⟨'n', _, rfl, rfl⟩ (by simp) fun rest _ =>
      expectWord_append ['u', 'l', 'l'] rest
  · exact isSkipped_of_scalar ⟨'t', _, rfl, rfl⟩ (by simp) fun rest _ =>
      expectWord_append ['r', 'u', 'e'] rest
  · exact isSkipped_of_scalar ⟨'f', _, rfl, rfl⟩ (by simp) fun rest _ =>
      expectWord_append ['a', 'l', 's', 'e'] rest

theorem isSkipped_quoted {body : Text} (isBody : IsBody body) :
    IsSkipped ('"' :: body ++ ['"']) := by
  refine isSkipped_of_scalar ⟨'"', _, rfl, rfl⟩ (by simp) fun rest _ => ?_
  obtain ⟨text, reads⟩ := isBody.exists_characters rest
  rw [List.append_assoc]
  show (characters false (body ++ '"' :: rest)).map _ = _
  rw [reads]
  rfl

/-- A sign or a digit is no character that something else starts with. -/
theorem sign_or_digit {c : Char} (isStart : (c = '-' || c.isDigit) = true) :
    isGap c = false ∧ c ∉ ['[', ']', '\x7b', '\x7d', '"', 'n', 't', 'f'] := by
  have notOther : [' ', '\n', '\t', '\r', '[', ']', '\x7b', '\x7d', '"', 'n', 't', 'f'].all
      fun other => !(other = '-' || other.isDigit) := by decide
  have differs : c ∉ [' ', '\n', '\t', '\r', '[', ']', '\x7b', '\x7d', '"', 'n', 't', 'f'] := by
    intro member
    have notStart := List.all_eq_true.mp notOther c member
    rw [isStart] at notStart
    cases notStart
  constructor
  · simp only [isGap, Bool.or_eq_false_iff, decide_eq_false_iff_not]
    refine ⟨⟨⟨?_, ?_⟩, ?_⟩, ?_⟩ <;> rintro rfl <;> exact differs (by decide)
  · exact fun member => differs (List.mem_append_right [' ', '\n', '\t', '\r'] member)

theorem skipScalar_numeral {c : Char} (isStart : (c = '-' || c.isDigit) = true) (rest : Text) :
    skipScalar (c :: rest) = skipNumeral (c :: rest) := by
  have other := (sign_or_digit isStart).2
  rw [skipScalar.eq_def]
  split
  · next same => cases same
  · next same =>
      obtain ⟨rfl, -⟩ := List.cons.inj same
      exact absurd (by decide) other
  · next same =>
      obtain ⟨rfl, -⟩ := List.cons.inj same
      exact absurd (by decide) other
  · next same =>
      obtain ⟨rfl, -⟩ := List.cons.inj same
      exact absurd (by decide) other
  · next same =>
      obtain ⟨rfl, -⟩ := List.cons.inj same
      exact absurd (by decide) other
  · next same =>
      obtain ⟨rfl, rfl⟩ := List.cons.inj same
      exact if_pos isStart

theorem isSkipped_numeral {text : Text} (isNumeral : IsNumeral text) : IsSkipped text := by
  obtain ⟨c, more, rfl, isStart⟩ := isNumeral.exists_cons
  obtain ⟨isNone, other⟩ := sign_or_digit isStart
  refine isSkipped_of_scalar ⟨c, more, rfl, isNone⟩ ?_ fun rest follows => ?_
  · intro d isHead
    obtain rfl := Option.some.inj isHead
    exact ⟨fun same => other (by simp [same]), fun same => other (by simp [same])⟩
  · obtain ⟨found, reads⟩ := isNumeral.exists_numeral follows
    rw [List.cons_append, skipScalar_numeral isStart, skipNumeral, ← List.cons_append, reads]

/-! ## Values in brackets -/

/-- The bracket that opens. -/
def Frame.opening : Frame → Char
  | .list => '['
  | .object => '\x7b'

/-- What stands in front of the values in a bracket, between them and the marks: a gap, or the name
of a member with its colon. -/
inductive Frame.IsFront : Frame → Text → Prop
  | gap {gap : Text} (isGapText : IsGapText gap) : IsFront .list gap
  | name {before written between lead : Text} (gapBefore : IsGapText before)
    (isBody : IsBody written) (gapBetween : IsGapText between) (gapLead : IsGapText lead) :
    IsFront .object (before ++ '"' :: (written ++ '"' :: (between ++ ':' :: lead)))

/-- The name of a member is skipped up to the colon behind it. -/
theorem skipKey_object {before written between : Text} (gapBefore : IsGapText before)
    (isBody : IsBody written) (gapBetween : IsGapText between) (more : Text) :
    Frame.object.skipKey (before ++ '"' :: (written ++ '"' :: (between ++ ':' :: more))) =
      .ok more := by
  obtain ⟨text, reads⟩ := isBody.exists_characters (between ++ ':' :: more)
  have opens : expectMark '"' (before ++ '"' :: (written ++ '"' :: (between ++ ':' :: more))) =
      .ok (written ++ '"' :: (between ++ ':' :: more)) :=
    expectMark_append gapBefore (by decide) _
  simp only [Frame.skipKey, key, opens, reads, bind, Except.bind]
  exact expectMark_append gapBetween (by decide) more

namespace Frame.IsFront

variable {frame : Frame} {front : Text}

/-- Behind a comma the name of a member is skipped, and its value comes next. -/
theorem skipKey_append (isFront : frame.IsFront front) (more : Text) :
    ∃ lead, IsGapText lead ∧ frame.skipKey (front ++ more) = .ok (lead ++ more) := by
  cases isFront with
  | gap isGapText => exact ⟨front, isGapText, rfl⟩
  | @name before written between lead gapBefore isBody gapBetween gapLead =>
      refine ⟨lead, gapLead, ?_⟩
      simp only [List.append_assoc, List.cons_append]
      exact skipKey_object gapBefore isBody gapBetween _

/-- Behind a bracket that has just opened it is the same, and nothing in front of a value is taken
for the end of the bracket. -/
theorem afterOpening_append (isFront : frame.IsFront front) {more : Text}
    (starts : StartsValue more) (frames : List Frame) :
    ∃ lead, IsGapText lead ∧ lead.length ≤ front.length ∧
      afterOpening frame frames (front ++ more) = .ok (frame :: frames, lead ++ more) := by
  cases isFront with
  | gap isGapText =>
      obtain ⟨c, rest, rfl, isNone, notEnd⟩ := starts
      refine ⟨[], isGapText_nil, Nat.zero_le _, ?_⟩
      rw [afterOpening, skipGap_append_of_starts isGapText ⟨c, rest, rfl, isNone⟩]
      exact if_neg notEnd
  | @name before written between lead gapBefore isBody gapBetween gapLead =>
      refine ⟨lead, gapLead, by simp only [List.length_append, List.length_cons]; omega, ?_⟩
      simp only [List.append_assoc, List.cons_append]
      rw [afterOpening, skipGap_append_of_starts gapBefore ⟨'"', _, rfl, by decide⟩]
      have keyed := skipKey_object isGapText_nil isBody gapBetween (lead ++ more)
      exact (if_neg (by decide)).trans (congrArg (Except.map _) keyed)

end Frame.IsFront

section Items

variable {α : Type} {frame : Frame} {writes : α → Text → Prop} {value : α → Text}

/-- Behind the last value of a bracket the bracket is closed. -/
theorem afterValue_closing {after : Text} (gapAfter : IsGapText after) (frames : List Frame)
    (rest : Text) :
    afterValue (frame :: frames) (after ++ frame.closing :: rest) = afterValue frames rest := by
  rw [afterValue, skipGap_append_of_starts gapAfter ⟨_, _, rfl, by cases frame <;> decide⟩]
  exact if_pos rfl

/-- Behind another value of a bracket comes what stands in front of the next. -/
theorem afterValue_comma {after : Text} (gapAfter : IsGapText after) (frames : List Frame)
    (rest : Text) :
    afterValue (frame :: frames) (after ++ ',' :: rest) =
      (frame.skipKey rest).map fun behind => (frame :: frames, behind) := by
  rw [afterValue, skipGap_append_of_starts gapAfter ⟨_, _, rfl, by decide⟩]
  exact (if_neg (by cases frame <;> decide)).trans (if_pos rfl)

/-- The values of a bracket, one after another: from behind what stands in front of the first,
reading goes on behind the bracket. -/
theorem Separated.exists_front {items : List α} {text : Text}
    (separated : Separated writes items text)
    (parts : ∀ item text, writes item text → ∃ front after,
      text = front ++ (value item ++ after) ∧ frame.IsFront front ∧ IsGapText after)
    (skipped : ∀ item ∈ items, IsSkipped (value item)) (frames : List Frame) (rest : Text) :
    ∃ item ∈ items, ∃ front more, frame.IsFront front ∧
      text ++ frame.closing :: rest = front ++ (value item ++ more) ∧
      ∀ lead, IsGapText lead → skipFrom (frame :: frames) (lead ++ (value item ++ more)) =
        goOn (afterValue frames rest) := by
  induction separated with
  | @last item text one =>
      obtain ⟨front, after, rfl, isFront, gapAfter⟩ := parts item text one
      refine ⟨item, List.mem_singleton_self item, front, after ++ frame.closing :: rest, isFront,
        by simp only [List.append_assoc], fun lead gapLead => ?_⟩
      have follows : Follows (after ++ frame.closing :: rest) :=
        follows_append gapAfter (follows_mark (by cases frame <;> decide) rest)
      rw [skipped item (List.mem_singleton_self item) _ _ _ gapLead follows,
        afterValue_closing gapAfter]
  | @more item items text later one others ih =>
      obtain ⟨front, after, rfl, isFront, gapAfter⟩ := parts item text one
      obtain ⟨next, -, nextFront, more, isNextFront, same, goesOn⟩ :=
        ih fun item member => skipped item (List.mem_cons_of_mem _ member)
      refine ⟨item, List.mem_cons_self, front, after ++ ',' :: (later ++ frame.closing :: rest),
        isFront, by simp only [List.append_assoc, List.cons_append], fun lead gapLead => ?_⟩
      have follows : Follows (after ++ ',' :: (later ++ frame.closing :: rest)) :=
        follows_append gapAfter (follows_mark (by decide) _)
      obtain ⟨nextLead, gapNext, keyed⟩ := isNextFront.skipKey_append (value next ++ more)
      rw [skipped item List.mem_cons_self _ _ _ gapLead follows, afterValue_comma gapAfter, same,
        keyed]
      exact goesOn nextLead gapNext

/-- A bracket is skipped if the values in it are. -/
theorem Bracketed.isSkipped (frame : Frame) (value : α → Text) {items : List α} {text : Text}
    (bracketed : Bracketed frame.opening frame.closing writes items text)
    (parts : ∀ item text, writes item text → ∃ front after,
      text = front ++ (value item ++ after) ∧ frame.IsFront front ∧ IsGapText after)
    (start : ∀ item ∈ items, StartsValue (value item))
    (skipped : ∀ item ∈ items, IsSkipped (value item)) : IsSkipped text := by
  intro frames gap rest isGapText follows
  have opens (inner : Text) :
      skipStep frames (gap ++ (frame.opening :: inner ++ [frame.closing] ++ rest)) =
        afterOpening frame frames (inner ++ frame.closing :: rest) := by
    have starts : StartsAtOnce (frame.opening :: (inner ++ frame.closing :: rest)) :=
      ⟨_, _, rfl, by cases frame <;> decide⟩
    simp only [List.cons_append, List.append_assoc, List.nil_append]
    rw [skipStep, skipGap_append_of_starts isGapText starts]
    cases frame <;> rfl
  cases bracketed with
  | @empty inner gapInner =>
      have closes : afterOpening frame frames (inner ++ frame.closing :: rest) =
          afterValue frames rest := by
        rw [afterOpening,
          skipGap_append_of_starts gapInner ⟨_, _, rfl, by cases frame <;> decide⟩]
        exact if_pos rfl
      refine skipFrom_of_step ((opens inner).trans closes) fun left behind goesOn => ?_
      have noLonger := afterValue_length_le goesOn
      simp only [List.length_append, List.length_cons]
      omega
  | @items items inner separated =>
      obtain ⟨item, member, front, more, isFront, same, goesOn⟩ :=
        separated.exists_front parts skipped frames rest
      obtain ⟨c, tail, written, isNone, notEnd⟩ := start item member
      have starts : StartsValue (value item ++ more) :=
        ⟨c, tail ++ more, by rw [written, List.cons_append], isNone, notEnd⟩
      obtain ⟨lead, gapLead, noLonger, next⟩ := isFront.afterOpening_append starts frames
      have step := (opens inner).trans (congrArg (afterOpening frame frames) same)
      rw [skipFrom_of_step (step.trans next), goOn, goesOn lead gapLead]
      intro left behind found
      cases found
      have length := congrArg List.length same
      simp only [List.length_append, List.length_cons] at length ⊢
      omega

end Items

/-! ## All values -/

theorem IsValue.startsValue {value : Text} (isValue : IsValue value) : StartsValue value := by
  cases isValue with
  | word known =>
      have all : ∀ text ∈ ["null".toList, "true".toList, "false".toList],
          ∃ c rest, text = c :: rest ∧ isGap c = false ∧ c ≠ ']' := by
        simp [isGap]
      exact all value known
  | numeral isNumeral =>
      obtain ⟨c, rest, rfl, isStart⟩ := isNumeral.exists_cons
      obtain ⟨isNone, other⟩ := sign_or_digit isStart
      exact ⟨c, rest, rfl, isNone, fun same => other (by simp [same])⟩
  | quoted => exact ⟨_, _, rfl, by decide, by decide⟩
  | list isList =>
      cases isList with
      | empty | items => exact ⟨_, _, rfl, by decide, by decide⟩
  | object isObject =>
      cases isObject with
      | empty | items => exact ⟨_, _, rfl, by decide, by decide⟩

theorem IsValue.isSkipped {value : Text} (isValue : IsValue value) : IsSkipped value := by
  induction isValue with
  | word known => exact isSkipped_word known
  | numeral isNumeral => exact isSkipped_numeral isNumeral
  | quoted isBody => exact isSkipped_quoted isBody
  | list isList areValues ih =>
      refine Bracketed.isSkipped .list id isList ?_
        (fun value member => (areValues value member).startsValue) ih
      rintro value text ⟨gapBefore, gapAfter⟩
      exact ⟨_, _, rfl, .gap gapBefore, gapAfter⟩
  | object isObject areValues ih =>
      refine Bracketed.isSkipped .object Prod.snd isObject ?_
        (fun member isMember => (areValues member isMember).startsValue) ih
      rintro member text ⟨gapBefore, ⟨isBody⟩, gapBetween, gapLead, gapAfter⟩
      exact ⟨_, _, by simp only [List.append_assoc, List.cons_append],
        .name gapBefore isBody gapBetween gapLead, gapAfter⟩

/-- A value that nobody asks for is skipped up to its end. -/
theorem IsValue.skipValue_append {value gap rest : Text} (isValue : IsValue value)
    (isGapText : IsGapText gap) (follows : Follows rest) :
    skipValue (gap ++ (value ++ rest)) = .ok rest :=
  isValue.isSkipped [] gap rest isGapText follows

end Errand.Json
