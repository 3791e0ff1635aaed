/-
# Records that are filled in later

A record can be read with its defaults in place, or into a form in which what a text leaves out
stays missing, to be filled in afterwards. Both ways give the same record and the same faults, if
every member of the one mirrors that of the other.
-/
import Errand.Json.Record
import Mathlib.Data.List.Forall2
import Mathlib.Data.Option.Basic

namespace Errand.Json

/-- A reader with a change made to its value. -/
def Reader.map {α β : Type} (f : α → β) (read : Reader α) : Reader β := fun text =>
  (read text).map fun (value, rest) => (f value, rest)

theorem Reader.map_id {α : Type} (read : Reader α) : read.map id = read := by
  funext text
  rw [Reader.map]
  cases read text <;> rfl

theorem readAll_map {α β : Type} (f : α → β) (read : Reader α) (text : Text) :
    readAll (read.map f) text = (readAll read text).map f := by
  rw [readAll, readAll, Reader.map]
  cases read text with
  | error fault => rfl
  | ok found =>
      obtain ⟨value, rest⟩ := found
      show ite _ _ _ = Except.map f (ite _ _ _)
      rw [apply_ite (Except.map f)]
      rfl

variable {σ τ : Type} {fill : σ → τ} {members : List (Member σ)} {filled : List (Member τ)}

/-- Two members of one name that read the same values, where putting a value into the record and
filling the record in can be done in either order. -/
inductive Mirrors (fill : σ → τ) : Member σ → Member τ → Prop
  | of {α β : Type} (name : String) (f : α → β) {read : Reader α} {readFilled : Reader β}
    {put : α → σ → σ} {putFilled : β → τ → τ} (reads : readFilled = read.map f)
    (puts : ∀ value record, putFilled (f value) (fill record) = fill (put value record)) :
    Mirrors fill (.of name read put) (.of name readFilled putFilled)

namespace Mirrors

theorem same_name {member : Member σ} {other : Member τ} (mirrored : Mirrors fill member other) :
    other.name = member.name := by
  cases mirrored
  rfl

/-- Both members fail alike, or they read up to the same place and change the record alike. -/
theorem read_eq {member : Member σ} {other : Member τ} (mirrored : Mirrors fill member other)
    (text : Text) :
    (∃ fault, member.read text = .error fault ∧ other.read text = .error fault) ∨
      ∃ change changeFilled rest, member.read text = .ok (change, rest) ∧
        other.read text = .ok (changeFilled, rest) ∧
        ∀ record, changeFilled (fill record) = fill (change record) := by
  cases mirrored with
  | @of α β name f read readFilled put putFilled reads puts =>
      subst reads
      simp only [Member.of, Reader.map]
      cases read text with
      | error fault => exact .inl ⟨fault, rfl, rfl⟩
      | ok found => exact .inr ⟨put found.1, putFilled (f found.1), found.2, rfl, rfl, puts found.1⟩

/-- Under one name both records know a member, or neither does. -/
theorem find? (mirrored : List.Forall₂ (Mirrors fill) members filled) (name : Text) :
    Option.Rel (Mirrors fill) (members.find? (·.name = name)) (filled.find? (·.name = name)) := by
  induction mirrored with
  | nil => exact .none
  | @cons member other members filled here later ih =>
      rw [List.find?_cons, List.find?_cons, here.same_name]
      split
      · exact .some here
      · exact ih

/-- A list of values is read alike. -/
theorem elements (mirrored : List.Forall₂ (Mirrors fill) members filled) (isFirst : Bool)
    (record : σ) :
    Json.elements isFirst filled (fill record) =
      Reader.map fill (Json.elements isFirst members record) := by
  induction mirrored generalizing isFirst record with
  | nil =>
      funext text
      rw [Reader.map, Json.elements, Json.elements]
      cases endOfList text <;> rfl
  | @cons member other members filled here later ih =>
      funext text
      rw [Reader.map, Json.elements, Json.elements]
      cases nextElement isFirst text with
      | error fault => rfl
      | ok next =>
          cases next with
          | none =>
              simp only [Except.bind, bind]
              cases endOfList text <;> rfl
          | some element =>
              simp only [Except.bind, bind]
              rcases here.read_eq element with
                ⟨fault, failed, failedToo⟩ | ⟨change, changeFilled, rest, found, foundToo, changes⟩
              · rw [failed, failedToo]
                rfl
              · simp only [found, foundToo, changes, ih]
                rfl

/-- One member of an object is read alike. -/
theorem oneMember (mirrored : List.Forall₂ (Mirrors fill) members filled) (seen : List Text)
    (record : σ) (text : Text) :
    Json.oneMember filled seen (fill record) text =
      (Json.oneMember members seen record text).map
        fun (record, seen, rest) => (fill record, seen, rest) := by
  rw [Json.oneMember, Json.oneMember]
  cases key true text with
  | error fault => rfl
  | ok named =>
      obtain ⟨name, rest⟩ := named
      simp only [Except.bind, bind]
      have known := find? mirrored name
      generalize members.find? (·.name = name) = found, filled.find? (·.name = name) = foundToo
        at known ⊢
      cases known with
      | none =>
          cases expectMark ':' rest with
          | error fault => rfl
          | ok value =>
              dsimp only
              cases skipValue value <;> rfl
      | @some member other here =>
          by_cases twice : seen.contains name
          · simp only [twice, if_true]
            rfl
          · simp only [twice]
            cases expectMark ':' rest with
            | error fault => rfl
            | ok value =>
                rcases here.read_eq value with
                  ⟨fault, failed, failedToo⟩ | ⟨change, changeFilled, rest, read, readToo, changes⟩
                · simp only [failed, failedToo]
                  rfl
                · simp only [read, readToo, changes]
                  rfl

/-- All members of an object are read alike. -/
theorem membersFrom (mirrored : List.Forall₂ (Mirrors fill) members filled) (isFirst : Bool)
    (seen : List Text) (record : σ) (text : Text) :
    Json.membersFrom filled isFirst seen (fill record) text =
      (Json.membersFrom members isFirst seen record text).map
        fun (record, rest) => (fill record, rest) := by
  fun_induction Json.membersFrom members isFirst seen record text with
  | case1 isFirst seen record text fault stops =>
      rw [Json.membersFrom, stops]
      rfl
  | case2 isFirst seen record text ends =>
      rw [Json.membersFrom, ends]
      cases expectMark '\x7d' text <;> rfl
  | case3 isFirst seen record text start goesOn fault stops =>
      rw [Json.membersFrom, goesOn]
      simp only [oneMember mirrored, stops]
      rfl
  | case4 isFirst seen record text start goesOn after seenAfter rest found shorter ih =>
      rw [Json.membersFrom, goesOn]
      simp only [oneMember mirrored, found, Except.map, shorter, if_true]
      exact ih
  | case5 isFirst seen record text start goesOn after seenAfter rest found notShorter =>
      rw [Json.membersFrom, goesOn]
      simp only [oneMember mirrored, found, Except.map, notShorter, if_false]

/-- A record is read alike. -/
theorem readRecord (mirrored : List.Forall₂ (Mirrors fill) members filled) (initial : σ) :
    Json.readRecord filled (fill initial) = Reader.map fill (Json.readRecord members initial) := by
  funext text
  rw [Reader.map, Json.readRecord, Json.readRecord]
  split
  · rw [elements mirrored]
    rfl
  · exact membersFrom mirrored true [] initial _
  · rfl

end Mirrors

end Errand.Json
