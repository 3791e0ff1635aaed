/-
# Records that are filled

A record is filled member by member, in the order in which the members come. What it holds on the
way is taken to depend only on the names that have come so far. Then the order has no part in what
it holds in the end, and neither have the members whose names it does not know.
-/
import Errand.Proofs.Json.Taking

namespace Errand.Json

variable {ι σ : Type} {name : ι → Text} {writes : ι → Text → Prop} {needed : ι → Prop}
  {members : List (Member σ)} {state : List Text → σ}

/-- What a record holds depends on the names that have come so far. Each name that it knows is read
as its values are written, and no others are known. -/
structure IsFilled (name : ι → Text) (writes : ι → Text → Prop) (members : List (Member σ))
    (state : List Text → σ) : Prop where
  unknown : ∀ other, (∀ i, name i ≠ other) → members.find? (·.name = other) = none
  known : ∀ i written, writes i written → ∃ member change,
    members.find? (·.name = name i) = some member ∧ Takes member.read written change ∧
      ∀ seen, change (state seen) = state (name i :: seen)

/-- Members with different names name nothing twice. -/
theorem once_of_nodup {members : List (Text × Text)} (distinct : (members.map (·.1)).Nodup) :
    members.Pairwise fun member later => ∀ i, name i = member.1 → name i ≠ later.1 :=
  (List.pairwise_map.mp distinct).imp fun differs _ same sameToo =>
    differs (same.symm.trans sameToo)

/-! ## One member -/

theorem key_append {before written text : Text} (gapBefore : IsGapText before)
    (spells : Spells written text) (rest : Text) :
    key true (before ++ '"' :: (written ++ '"' :: rest)) = .ok (text, rest) := by
  have opens : expectMark '"' (before ++ '"' :: (written ++ '"' :: rest)) =
      .ok (written ++ '"' :: rest) := expectMark_append gapBefore (by decide) _
  simp only [key, opens, bind, Except.bind, spells.characters_append]

/-- A member is read up to what follows its value. If the record knows its name, the name has come
now; if not, nothing has changed. -/
theorem IsFilled.exists_oneMember (filled : IsFilled name writes members state)
    {member : Text × Text} {text : Text} (isMember : IsMember Spells member text)
    (known : ∀ i, name i = member.1 → writes i member.2)
    (unknown : (∀ i, name i ≠ member.1) → IsValue member.2) {seen : List Text}
    (fresh : ∀ i, name i = member.1 → member.1 ∉ seen) {more : Text} (follows : Follows more) :
    ∃ seenAfter after, IsGapText after ∧ after.length < text.length ∧
      oneMember members seen (state seen) (text ++ more) =
        .ok (state seenAfter, seenAfter, after ++ more) ∧
      seen ⊆ seenAfter ∧ seenAfter ⊆ member.1 :: seen ∧
      ∀ i, name i = member.1 → member.1 ∈ seenAfter := by
  cases isMember with
  | @padded before written found between lead value after gapBefore named gapBetween gapLead
      gapAfter =>
      have colon : expectMark ':' (between ++ ':' :: (lead ++ (value ++ (after ++ more)))) =
          .ok (lead ++ (value ++ (after ++ more))) := expectMark_append gapBetween (by decide) _
      have behind : Follows (after ++ more) := follows_append gapAfter follows
      have shorter : after.length < (before ++ '"' :: (written ++ '"' ::
          (between ++ ':' :: (lead ++ (value ++ after))))).length := by
        simp only [List.length_append, List.length_cons]
        omega
      simp only [List.append_assoc, List.cons_append]
      rw [oneMember, key_append gapBefore named]
      simp only [bind, Except.bind]
      by_cases isKnown : ∃ i, name i = found
      · obtain ⟨i, rfl⟩ := isKnown
        obtain ⟨member, change, finds, takes, changes⟩ := filled.known i value (known i rfl)
        have notSeen : seen.contains (name i) = false := by
          simpa using fresh i rfl
        refine ⟨name i :: seen, after, gapAfter, shorter, ?_, List.subset_cons_self _ _,
          List.Subset.refl _, fun _ _ => List.mem_cons_self⟩
        simp only [finds, notSeen, colon, takes lead _ gapLead behind, changes]
        rfl
      · have isUnknown : ∀ i, name i ≠ found := fun i same => isKnown ⟨i, same⟩
        refine ⟨seen, after, gapAfter, shorter, ?_, List.Subset.refl _, List.subset_cons_self _ _,
          fun i same => absurd same (isUnknown i)⟩
        simp only [filled.unknown found isUnknown, colon,
          (unknown isUnknown).skipValue_append gapLead behind]
        rfl

/-! ## All members -/

/-- Behind the last member the object is closed. -/
theorem membersFrom_closing {isFirst : Bool} {gap : Text} (isGapText : IsGapText gap)
    (seen : List Text) (record : σ) (rest : Text) :
    membersFrom members isFirst seen record (gap ++ '\x7d' :: rest) = .ok (record, rest) := by
  have ends : nextMember isFirst (gap ++ '\x7d' :: rest) = .ok none := by
    rw [nextMember, skipGap_append_of_starts isGapText ⟨_, _, rfl, by decide⟩]
    exact if_pos rfl
  rw [membersFrom, ends]
  dsimp only
  rw [expectMark_append isGapText (by decide)]
  rfl

/-- A member behind a comma is read, and then the others. -/
theorem membersFrom_comma {gap : Text} (isGapText : IsGapText gap) {seen seenAfter : List Text}
    {record after : σ} {text rest : Text}
    (reads : oneMember members seen record text = .ok (after, seenAfter, rest))
    (shorter : rest.length < text.length) :
    membersFrom members false seen record (gap ++ ',' :: text) =
      membersFrom members false seenAfter after rest := by
  have next : nextMember false (gap ++ ',' :: text) = .ok (some text) := by
    rw [nextMember, skipGap_append_of_starts isGapText ⟨_, _, rfl, by decide⟩]
    rfl
  have stillShorter : rest.length < (gap ++ ',' :: text).length := by
    simp only [List.length_append, List.length_cons]
    omega
  rw [membersFrom, next]
  dsimp only
  rw [reads]
  exact if_pos stillShorter

/-- The first member is read as the others are: a gap in front of its name is skipped either way. -/
theorem membersFrom_first {seen seenAfter : List Text} {record after : σ} {text rest : Text}
    (starts : ∃ gap more, IsGapText gap ∧ text = gap ++ '"' :: more)
    (reads : oneMember members seen record text = .ok (after, seenAfter, rest))
    (shorter : rest.length < text.length) :
    membersFrom members true seen record text = membersFrom members false seenAfter after rest := by
  obtain ⟨gap, more, isGapText, rfl⟩ := starts
  have skipped : skipGap (gap ++ '"' :: more) = '"' :: more :=
    skipGap_append_of_starts isGapText ⟨_, _, rfl, by decide⟩
  have next : nextMember true (gap ++ '"' :: more) = .ok (some ('"' :: more)) := by
    rw [nextMember, skipped]
    rfl
  have sameKey : key true ('"' :: more) = key true (gap ++ '"' :: more) := by
    rw [key, key, expectMark, expectMark, skipped]
    rfl
  have sameMember : oneMember members seen record ('"' :: more) =
      oneMember members seen record (gap ++ '"' :: more) := by
    rw [oneMember, oneMember, sameKey]
  rw [membersFrom, next]
  dsimp only
  rw [sameMember, reads]
  exact if_pos shorter

/-- The members of an object, one after another: once the first is read, the others are, up to what
stands behind the object. -/
theorem IsFilled.exists_separated (filled : IsFilled name writes members state)
    {written : List (Text × Text)} {text : Text}
    (separated : Separated (IsMember Spells) written text)
    (once : written.Pairwise fun member later => ∀ i, name i = member.1 → name i ≠ later.1)
    (known : ∀ member ∈ written, ∀ i, name i = member.1 → writes i member.2)
    (unknown : ∀ member ∈ written, (∀ i, name i ≠ member.1) → IsValue member.2)
    {seen : List Text} (fresh : ∀ member ∈ written, ∀ i, name i = member.1 → member.1 ∉ seen)
    (rest : Text) :
    ∃ seenFirst behind seenAfter,
      oneMember members seen (state seen) (text ++ '\x7d' :: rest) =
        .ok (state seenFirst, seenFirst, behind) ∧
      behind.length < (text ++ '\x7d' :: rest).length ∧
      membersFrom members false seenFirst (state seenFirst) behind = .ok (state seenAfter, rest) ∧
      seen ⊆ seenAfter ∧ ∀ i, name i ∈ written.map (·.1) → name i ∈ seenAfter := by
  induction separated generalizing seen with
  | @last member text one =>
      obtain ⟨seenAfter, after, gapAfter, shorter, reads, grows, -, comes⟩ :=
        filled.exists_oneMember one (known member List.mem_cons_self)
          (unknown member List.mem_cons_self) (fresh member List.mem_cons_self)
          (follows_mark (by decide) rest : Follows ('\x7d' :: rest))
      refine ⟨seenAfter, _, seenAfter, reads, ?_, membersFrom_closing gapAfter _ _ rest, grows, ?_⟩
      · simp only [List.length_append]
        omega
      · intro i isName
        have same : name i = member.1 := by simpa using isName
        exact same ▸ comes i same
  | @more member others text later one separated ih =>
      have follows : Follows (',' :: (later ++ '\x7d' :: rest)) := follows_mark (by decide) _
      obtain ⟨seenFirst, after, gapAfter, shorter, reads, grows, bounded, comes⟩ :=
        filled.exists_oneMember one (known member List.mem_cons_self)
          (unknown member List.mem_cons_self) (fresh member List.mem_cons_self) follows
      obtain ⟨apart, onceLater⟩ := List.pairwise_cons.mp once
      have freshLater : ∀ other ∈ others, ∀ i, name i = other.1 → other.1 ∉ seenFirst := by
        intro other isOther i same inFirst
        rcases List.mem_cons.mp (bounded inFirst) with isMember | inSeen
        · exact apart other isOther i (same.trans isMember) same
        · exact fresh other (List.mem_cons_of_mem _ isOther) i same inSeen
      obtain ⟨seenSecond, behind, seenAfter, readsNext, shorterNext, readsAll, growsOn, comeLater⟩ :=
        ih onceLater (fun other isOther => known other (List.mem_cons_of_mem _ isOther))
          (fun other isOther => unknown other (List.mem_cons_of_mem _ isOther)) freshLater
      rw [List.append_assoc, List.cons_append]
      refine ⟨seenFirst, _, seenAfter, reads, ?_, ?_, List.Subset.trans grows growsOn, ?_⟩
      · simp only [List.length_append]
        omega
      · rw [membersFrom_comma gapAfter readsNext shorterNext]
        exact readsAll
      · intro i isName
        rcases List.mem_cons.mp isName with same | isLater
        · exact growsOn (same ▸ comes i same)
        · exact comeLater i isLater

/-- A member starts with a gap and a quote. -/
theorem Separated.exists_quote {names : Text → Text → Prop} {written : List (Text × Text)}
    {text : Text} (separated : Separated (IsMember names) written text) (rest : Text) :
    ∃ gap more, IsGapText gap ∧ text ++ rest = gap ++ '"' :: more := by
  have one {member : Text × Text} {text : Text} (isMember : IsMember names member text)
      (rest : Text) : ∃ gap more, IsGapText gap ∧ text ++ rest = gap ++ '"' :: more := by
    cases isMember with
    | padded gapBefore => exact ⟨_, _, gapBefore, by simp only [List.append_assoc]; rfl⟩
  cases separated with
  | last isMember => exact one isMember rest
  | more isMember => rw [List.append_assoc]; exact one isMember _

/-- A record is taken for what it holds once all that is needed has come. -/
theorem IsFilled.takes_record (filled : IsFilled name writes members state)
    {written : List (Text × Text)} {text : Text} (isObject : IsObject written text)
    (isRecord : IsRecord name writes needed written) {final : σ}
    (done : ∀ seen, (∀ i, needed i → name i ∈ seen) → state seen = final) :
    Takes (readRecord members (state [])) text final := by
  intro gap rest isGapText _
  have opens (inner : Text) :
      readRecord members (state []) (gap ++ ('\x7b' :: inner ++ ['\x7d'] ++ rest)) =
        membersFrom members true [] (state []) (inner ++ '\x7d' :: rest) := by
    have starts : StartsAtOnce ('\x7b' :: (inner ++ '\x7d' :: rest)) := ⟨_, _, rfl, by decide⟩
    simp only [List.cons_append, List.append_assoc, List.nil_append]
    rw [readRecord, skipGap_append_of_starts isGapText starts]
    rfl
  cases isObject with
  | empty gapInner =>
      rw [opens, membersFrom_closing gapInner, done [] isRecord.complete]
  | items separated =>
      obtain ⟨seenFirst, behind, seenAfter, reads, shorter, readsAll, -, come⟩ :=
        filled.exists_separated separated isRecord.once isRecord.known isRecord.unknown
          (fun _ _ _ _ => List.not_mem_nil) rest
      rw [opens, membersFrom_first (separated.exists_quote _) reads shorter, readsAll,
        done seenAfter fun i isNeeded => come i (isRecord.complete i isNeeded)]

/-- A whole text is read for the value in it. -/
theorem Takes.readAll_eq {α : Type} {read : Reader α} {written : Text} {value : α}
    (takes : Takes read written value) {before after : Text} (gapBefore : IsGapText before)
    (gapAfter : IsGapText after) : readAll read (before ++ (written ++ after)) = .ok value := by
  have follows : Follows after := by
    rw [← List.append_nil after]
    exact follows_append gapAfter follows_nil
  have nothing : skipGap after = [] := by
    rw [← List.append_nil after, skipGap_append gapAfter]
    rfl
  rw [readAll, takes before after gapBefore follows]
  simp only [bind, Except.bind, nothing]
  rfl

end Errand.Json
