/-
# Configuration files

A configuration file is a JSON object with an object for each section. It may give any of the values
and leave out the others, with whole sections left out or present, in any order on both levels, with
any gaps, and with members that no section knows. What comes of reading it is what it gives, and the
default wherever it gives nothing.

A word for the absence of a value gives nothing. It may stand only where a value may be missing in a
configuration too.
-/
import Errand.Proofs.Config.Layers
import Errand.Proofs.Json.Filling
import Errand.Proofs.Text.Encoding

namespace Errand.Config

open Json

/-! ## Names -/

/-- A section of a configuration. -/
inductive Section where
  | backend
  | execution
  | logging
  deriving DecidableEq, Repr

/-- The name of a section in a file. -/
def Section.name : Section → Text
  | .backend => "backend".toList
  | .execution => "execution".toList
  | .logging => "logging".toList

theorem Section.name_injective : Function.Injective Section.name := by
  intro part other same
  cases part <;> cases other <;> first | rfl | exact absurd same (by decide)

namespace Field

/-- The section that a field belongs to. -/
def home : Field → Section
  | .host | .user | .password | .port => .backend
  | .timeoutSecs | .maxRetryTimes | .connectTimeoutSecs => .execution
  | .level => .logging

/-- The name of a field in its section. -/
def name : Field → Text
  | .host => "host".toList
  | .user => "user".toList
  | .password => "password".toList
  | .port => "port".toList
  | .timeoutSecs => "timeout_secs".toList
  | .maxRetryTimes => "max_retry_times".toList
  | .connectTimeoutSecs => "connect_timeout_secs".toList
  | .level => "level".toList

theorem name_injective : Function.Injective name := by
  intro field other same
  cases field <;> cases other <;> first | rfl | exact absurd same (by decide)

end Field

/-! ## Values -/

/-- What may stand for a value that a configuration may lack: the value, or the word for its
absence. -/
inductive WritesOptional {α : Type} (writes : α → Text → Prop) : Option α → Text → Prop
  | value {value : α} {written : Text} (isWritten : writes value written) :
    WritesOptional writes (some value) written
  | null : WritesOptional writes none "null".toList

/-- What may stand for a value that a configuration always has. -/
inductive WritesRequired {α : Type} (writes : α → Text → Prop) : Option α → Text → Prop
  | value {value : α} {written : Text} (isWritten : writes value written) :
    WritesRequired writes (some value) written

theorem WritesRequired.exists_value {α : Type} {writes : α → Text → Prop} {value : Option α}
    {written : Text} (required : WritesRequired writes value written) :
    ∃ found, value = some found ∧ writes found written := by
  cases required with
  | value isWritten => exact ⟨_, rfl, isWritten⟩

/-- A number in its digits. -/
def WritesNumber {α : Type} (toNat : α → Nat) (value : α) (written : Text) : Prop :=
  written = Decimal.ofNat (toNat value)

/-- What may stand under the name of a field, and what it gives: texts in any spelling, and numbers
in their digits. -/
def Field.Writes : (field : Field) → Option field.Value → Text → Prop
  | .host | .user | .password => WritesOptional Quotes
  | .timeoutSecs => WritesOptional (WritesNumber UInt64.toNat)
  | .port => WritesRequired (WritesNumber UInt16.toNat)
  | .maxRetryTimes => WritesRequired (WritesNumber UInt32.toNat)
  | .connectTimeoutSecs => WritesRequired (WritesNumber UInt64.toNat)
  | .level => WritesRequired Quotes

/-! ## Files -/

/-- The fields of a section. -/
abbrev Section.Field (part : Section) : Type := { field : Config.Field // field.home = part }

/-- The text of a section, as one that gives these of its fields and no others. -/
def Section.IsText (given : Layer) (part : Section) (text : Text) : Prop :=
  ∃ members, IsObject members text ∧
    IsRecord (fun field : part.Field => field.1.name) (fun field => field.1.Writes (given field.1))
      (fun field => (given field.1).isSome) members

/-- The text of a file, as one that gives these fields and no others. A section may be left out if
none of its fields is given. -/
inductive IsFileText (given : Layer) : Text → Prop
  | object {before text after : Text} {members : List (Text × Text)}
    (gapBefore : IsGapText before) (gapAfter : IsGapText after) (isObject : IsObject members text)
    (isRecord : IsRecord Section.name (Section.IsText given)
      (fun part => ∃ field : part.Field, (given field.1).isSome) members) :
    IsFileText given (before ++ (text ++ after))

/-! ## Reading values -/

theorem takes_member {σ α : Type} {name : String} {read : Reader α} {put : α → σ → σ}
    {written : Text} {value : α} (takes : Takes read written value) :
    Takes (Member.of name read put).read written (put value) := by
  intro gap rest isGapText follows
  show (read _).map _ = _
  rw [takes gap rest isGapText follows]
  rfl

/-- A number of so many bits is read from the number as it is written. -/
theorem takes_word {α : Type} {bound number : Nat} {ofNat : Nat → α} {word : α}
    (isWord : ofNat number = word) (within : number < bound) (fits : bound ≤ UInt64.size) :
    Takes (fun text => (readNatural bound text).map fun (value, rest) => (ofNat value, rest))
      (Decimal.ofNat number) word := by
  intro gap rest isGapText follows
  dsimp only
  rw [takes_natural (Nat.lt_of_lt_of_le within fits) within gap rest isGapText follows, Except.map,
    isWord]

theorem takes_optionalText {value : Option Text} {written : Text}
    (writes : WritesOptional Quotes value written) :
    Takes (readOptional readText) written value := by
  cases writes with
  | null => exact takes_null
  | value quotes =>
      have takes := takes_text quotes
      cases quotes with
      | quoted => exact takes.optional ⟨_, _, rfl, by decide⟩ (by simp)

theorem takes_optionalSecs {value : Option UInt64} {written : Text}
    (writes : WritesOptional (WritesNumber UInt64.toNat) value written) :
    Takes (readOptional readSecs) written value := by
  cases writes with
  | null => exact takes_null
  | @value secs written isWritten =>
      obtain rfl : written = Decimal.ofNat secs.toNat := isWritten
      obtain ⟨c, rest, written, isDigit⟩ := (isWhole_ofNat secs.toNat).exists_cons
      obtain ⟨isNone, other⟩ := sign_or_digit (c := c) (by simp [isDigit])
      have takes : Takes readSecs (Decimal.ofNat secs.toNat) secs :=
        takes_word UInt64.ofNat_toNat secs.toNat_lt (Nat.le_refl _)
      refine takes.optional ⟨c, rest, written, isNone⟩ ?_
      rw [written]
      rintro d isHead rfl
      obtain rfl := Option.some.inj isHead
      exact other (by decide)

/-! ## Filling sections -/

/-- A layer under some names only. -/
def Layer.within (given : Layer) (names : List Text) : Layer := fun field =>
  if field.name ∈ names then given field else none

/-- A layer in some sections only. -/
def Layer.inside (given : Layer) (names : List Text) : Layer := fun field =>
  if field.home.name ∈ names then given field else none

namespace Given

def BackendSection.ofLayer (given : Layer) : BackendSection :=
  ⟨given .host, given .user, given .password, given .port⟩

def ExecutionSection.ofLayer (given : Layer) : ExecutionSection :=
  ⟨given .timeoutSecs, given .maxRetryTimes, given .connectTimeoutSecs⟩

def LoggingSection.ofLayer (given : Layer) : LoggingSection := ⟨given .level⟩

/-- What is given, section by section. -/
def ofLayer (given : Layer) : Given := ⟨.ofLayer given, .ofLayer given, .ofLayer given⟩

theorem layer_ofLayer (given : Layer) : (ofLayer given).layer = given := by
  funext field
  cases field <;> rfl

end Given

variable {given : Layer}

theorem Layer.within_cons (names : List Text) (field other : Field) :
    given.within (field.name :: names) other =
      if other = field then given other else given.within names other := by
  by_cases same : other = field
  · subst same
    simp [Layer.within]
  · have differs : other.name ≠ field.name := fun sameName => same (Field.name_injective sameName)
    simp [Layer.within, same, differs]

/-- Only the names in the list of its members are known to a record. -/
theorem find?_eq_none_of_names {ι σ : Type} {name : ι → Text} {members : List (Member σ)}
    (names : ∀ member ∈ members, ∃ i, name i = member.name) {other : Text}
    (unknown : ∀ i, name i ≠ other) : members.find? (·.name = other) = none := by
  rw [List.find?_eq_none]
  intro member isMember same
  obtain ⟨i, isName⟩ := names member isMember
  exact unknown i (isName.trans (of_decide_eq_true same))

theorem isFilled_backend : IsFilled (fun field : Section.Field .backend => field.1.name)
    (fun field => field.1.Writes (given field.1)) Given.backendMembers
    fun seen => .ofLayer (given.within seen) where
  unknown other := by
    refine find?_eq_none_of_names ?_
    simp only [Given.backendMembers, List.forall_mem_cons]
    exact ⟨⟨⟨.host, rfl⟩, rfl⟩, ⟨⟨.user, rfl⟩, rfl⟩, ⟨⟨.password, rfl⟩, rfl⟩, ⟨⟨.port, rfl⟩, rfl⟩,
      fun _ isNone => by cases isNone⟩
  known := by
    rintro ⟨field, home⟩ written writes
    dsimp only at writes ⊢
    cases field with
    | host =>
        refine ⟨_, _, rfl, takes_member (takes_optionalText writes), fun seen => ?_⟩
        simp [Given.BackendSection.ofLayer, Layer.within_cons]
    | user =>
        refine ⟨_, _, rfl, takes_member (takes_optionalText writes), fun seen => ?_⟩
        simp [Given.BackendSection.ofLayer, Layer.within_cons]
    | password =>
        refine ⟨_, _, rfl, takes_member (takes_optionalText writes), fun seen => ?_⟩
        simp [Given.BackendSection.ofLayer, Layer.within_cons]
    | port =>
        obtain ⟨port, isGiven, rfl⟩ := WritesRequired.exists_value writes
        refine ⟨_, _, rfl, takes_member
          (takes_word UInt16.ofNat_toNat port.toNat_lt (by decide)), fun seen => ?_⟩
        simp [Given.BackendSection.ofLayer, Layer.within_cons, isGiven]
    | timeoutSecs | maxRetryTimes | connectTimeoutSecs | level => cases home

theorem isFilled_execution : IsFilled (fun field : Section.Field .execution => field.1.name)
    (fun field => field.1.Writes (given field.1)) Given.executionMembers
    fun seen => .ofLayer (given.within seen) where
  unknown other := by
    refine find?_eq_none_of_names ?_
    simp only [Given.executionMembers, List.forall_mem_cons]
    exact ⟨⟨⟨.timeoutSecs, rfl⟩, rfl⟩, ⟨⟨.maxRetryTimes, rfl⟩, rfl⟩,
      ⟨⟨.connectTimeoutSecs, rfl⟩, rfl⟩, fun _ isNone => by cases isNone⟩
  known := by
    rintro ⟨field, home⟩ written writes
    dsimp only at writes ⊢
    cases field with
    | timeoutSecs =>
        refine ⟨_, _, rfl, takes_member (takes_optionalSecs writes), fun seen => ?_⟩
        simp [Given.ExecutionSection.ofLayer, Layer.within_cons]
    | maxRetryTimes =>
        obtain ⟨times, isGiven, rfl⟩ := WritesRequired.exists_value writes
        refine ⟨_, _, rfl, takes_member
          (takes_word UInt32.ofNat_toNat times.toNat_lt (by decide)), fun seen => ?_⟩
        simp [Given.ExecutionSection.ofLayer, Layer.within_cons, isGiven]
    | connectTimeoutSecs =>
        obtain ⟨secs, isGiven, rfl⟩ := WritesRequired.exists_value writes
        refine ⟨_, _, rfl, takes_member
          (takes_word UInt64.ofNat_toNat secs.toNat_lt (Nat.le_refl _)), fun seen => ?_⟩
        simp [Given.ExecutionSection.ofLayer, Layer.within_cons, isGiven]
    | host | user | password | port | level => cases home

theorem isFilled_logging : IsFilled (fun field : Section.Field .logging => field.1.name)
    (fun field => field.1.Writes (given field.1)) Given.loggingMembers
    fun seen => .ofLayer (given.within seen) where
  unknown other := by
    refine find?_eq_none_of_names ?_
    simp only [Given.loggingMembers, List.forall_mem_cons]
    exact ⟨⟨⟨.level, rfl⟩, rfl⟩, fun _ isNone => by cases isNone⟩
  known := by
    rintro ⟨field, home⟩ written writes
    dsimp only at writes ⊢
    cases field with
    | level =>
        obtain ⟨level, isGiven, quotes⟩ := WritesRequired.exists_value writes
        refine ⟨_, _, rfl, takes_member (takes_text quotes), fun seen => ?_⟩
        simp [Given.LoggingSection.ofLayer, Layer.within_cons, isGiven]
    | host | user | password | port | timeoutSecs | maxRetryTimes | connectTimeoutSecs =>
        cases home

/-- Where all fields that are given have been named, naming makes no difference. -/
theorem Layer.within_eq {part : Section} {names : List Text}
    (complete : ∀ field : part.Field, (given field.1).isSome → field.1.name ∈ names)
    (field : Field) (home : field.home = part) : given.within names field = given field := by
  rw [within]
  split
  · rfl
  · next absent =>
      cases isGiven : given field with
      | none => rfl
      | some value => exact absurd (complete ⟨field, home⟩ (by simp [isGiven])) absent

theorem Layer.inside_cons (names : List Text) (part : Section) (field : Field) :
    given.inside (part.name :: names) field =
      if field.home = part then given field else given.inside names field := by
  by_cases same : field.home = part
  · simp [Layer.inside, same]
  · have differs : field.home.name ≠ part.name := fun sameName =>
      same (Section.name_injective sameName)
    simp [Layer.inside, same, differs]

/-- Where all sections with a field that is given have been named, naming makes no difference. -/
theorem Layer.inside_eq {names : List Text}
    (complete : ∀ part : Section, (∃ field : part.Field, (given field.1).isSome) →
      part.name ∈ names) : given.inside names = given := by
  funext field
  rw [inside]
  split
  · rfl
  · next absent =>
      cases isGiven : given field with
      | none => rfl
      | some value =>
          exact absurd (complete field.home ⟨⟨field, rfl⟩, by simp [isGiven]⟩) absent

/-- Each section is taken for what it gives. -/
theorem isFilled_sections : IsFilled Section.name (Section.IsText given) Given.sections
    fun seen => .ofLayer (given.inside seen) where
  unknown other := by
    refine find?_eq_none_of_names ?_
    simp only [Given.sections, List.forall_mem_cons]
    exact ⟨⟨.backend, rfl⟩, ⟨.execution, rfl⟩, ⟨.logging, rfl⟩, fun _ isNone => by cases isNone⟩
  known := by
    rintro part written ⟨members, isObject, isRecord⟩
    cases part with
    | backend =>
        have takes : Takes (readRecord Given.backendMembers .nothing) written (.ofLayer given) := by
          refine isFilled_backend.takes_record isObject isRecord fun seen complete => ?_
          have eq := Layer.within_eq complete
          simp only [Given.BackendSection.ofLayer, eq .host rfl, eq .user rfl, eq .password rfl,
            eq .port rfl]
        refine ⟨_, _, rfl, takes_member takes, fun seen => ?_⟩
        simp [Given.ofLayer, Given.BackendSection.ofLayer, Given.ExecutionSection.ofLayer,
          Given.LoggingSection.ofLayer, Layer.inside_cons, Field.home]
    | execution =>
        have takes : Takes (readRecord Given.executionMembers .nothing) written
            (.ofLayer given) := by
          refine isFilled_execution.takes_record isObject isRecord fun seen complete => ?_
          have eq := Layer.within_eq complete
          simp only [Given.ExecutionSection.ofLayer, eq .timeoutSecs rfl, eq .maxRetryTimes rfl,
            eq .connectTimeoutSecs rfl]
        refine ⟨_, _, rfl, takes_member takes, fun seen => ?_⟩
        simp [Given.ofLayer, Given.BackendSection.ofLayer, Given.ExecutionSection.ofLayer,
          Given.LoggingSection.ofLayer, Layer.inside_cons, Field.home]
    | logging =>
        have takes : Takes (readRecord Given.loggingMembers .nothing) written (.ofLayer given) := by
          refine isFilled_logging.takes_record isObject isRecord fun seen complete => ?_
          rw [Given.LoggingSection.ofLayer, Layer.within_eq complete .level rfl]
          rfl
        refine ⟨_, _, rfl, takes_member takes, fun seen => ?_⟩
        simp [Given.ofLayer, Given.BackendSection.ofLayer, Given.ExecutionSection.ofLayer,
          Given.LoggingSection.ofLayer, Layer.inside_cons, Field.home]

/-! ## Reading files -/

/-- A file is read for what it gives. -/
theorem ofJson_of_isFileText {text : Text} (isFileText : IsFileText given text) :
    Given.ofJson text = .ok (.ofLayer given) := by
  cases isFileText with
  | object gapBefore gapAfter isObject isRecord =>
      have takes : Takes (readRecord Given.sections .nothing) _ (.ofLayer given) :=
        isFilled_sections.takes_record isObject isRecord fun seen complete => by
          rw [Layer.inside_eq complete]
      exact takes.readAll_eq gapBefore gapAfter

/-- A file gives a configuration: what the file gives, laid over the defaults. -/
theorem ofFile_of_isFileText {text : Text} (isFileText : IsFileText given text) :
    ofFile (some (.ok (Utf8.encode text))) = .ok (given.onto standard) := by
  rw [ofFile, Utf8.decode?_encode]
  dsimp only
  rw [Given.ofJson_filled, ofJson_of_isFileText isFileText]
  show Except.ok _ = _
  rw [filled_eq_onto, Given.layer_ofLayer]

/-- A file that gives some fields is read, with its members in any order, with any gaps, and with
any values under names that nobody knows. The fields that it gives have the values that it gives
them. All others have their defaults, in sections that are there as in those that are not. -/
theorem partial_files_are_read {text : Text} (isFileText : IsFileText given text) :
    ∃ config, ofFile (some (.ok (Utf8.encode text))) = .ok config ∧
      (∀ field value, given field = some value → config.layer field = some value) ∧
      ∀ field, given field = none → config.layer field = defaults field := by
  have settled (field : Field) :
      (given.onto standard).layer field = (given field).or (defaults field) := by
    rw [layer_onto, layer_standard]
    rfl
  refine ⟨given.onto standard, ofFile_of_isFileText isFileText, ?_, ?_⟩
  · intro field value isGiven
    rw [settled, isGiven, Option.some_or]
  · intro field isMissing
    rw [settled, isMissing, Option.none_or]

/-- A port is given in the midst of members that are not known. Its name is spelled with a code
unit, a missing host is spelled out, and the other sections are left out. -/
theorem scattered_file_is_read :
    let given : Layer
      | .port => some 2200
      | _ => none
    let text := "\x7b\"x\": \x7b\"\\ud800\":null\x7d,\"backend\": " ++
      "\x7b\"level\": -0,\"p\\u006Frt\":2200,\"host\": null\x7d\x7d"
    IsFileText given text.toList ∧
      ∃ config, ofFile (some (.ok (Utf8.encode text.toList))) = .ok config ∧
        config.backend.port = 2200 ∧ config.backend.host = none ∧
        config.execution.connectTimeoutSecs = 10 := by
  intro given text
  have noGap := isGapText_nil
  have plain (name : Text) (unescaped : name.flatMap quotedChar = name) : Spells name name := by
    have spells := spells_flatMap_quotedChar name
    rwa [unescaped] at spells
  have called (name : Text) (unescaped : name.flatMap quotedChar = name) (value : Text) :
      IsMember Spells (name, value) _ :=
    .padded noGap (plain name unescaped) noGap isGapText_space noGap
  have unknown : IsValue "\x7b\"\\ud800\":null\x7d".toList := by
    have half : IsBody ['\\', 'u', 'd', '8', '0', '0'] :=
      .unit (@IsUnit.digits 'd' '8' '0' '0' 13 8 0 0 (by decide) (by decide) (by decide)
        (by decide)) .nil
    have isNull : IsMember IsLooseName (_, "null".toList) _ :=
      .padded noGap (.body half) noGap noGap noGap
    have object : IsValue _ :=
      .object (.items (.last isNull)) (List.forall_mem_singleton.mpr (.word (by decide)))
    exact object
  have backend : Section.IsText given .backend
      "\x7b\"level\": -0,\"p\\u006Frt\":2200,\"host\": null\x7d".toList := by
    have zero : IsValue "-0".toList :=
      .numeral (@IsNumeral.parts ['-'] ['0'] [] [] (by decide) .zero .absent .absent)
    have port : IsMember Spells (['p', 'o', 'r', 't'], "2200".toList) _ :=
      .padded noGap (.cons (.plain (c := 'p') (by decide)) <|
        .cons (.unit (c := 'o') (@IsUnit.digits '0' '0' '6' 'F' 0 0 6 15 (by decide) (by decide)
          (by decide) (by decide))) (plain ['r', 't'] (by decide))) noGap noGap noGap
    refine ⟨_, .items (.more (called "level".toList (by decide) "-0".toList) <|
      .more port <| .last (called "host".toList (by decide) "null".toList)),
      once_of_nodup (by decide), ?_, ?_, ?_⟩
    · simp only [List.forall_mem_cons]
      refine ⟨?_, ?_, ?_, fun _ isNone => by cases isNone⟩
      · rintro ⟨field, home⟩ same
        obtain rfl : field = .level := Field.name_injective same
        cases home
      · rintro ⟨field, home⟩ same
        obtain rfl : field = .port := Field.name_injective same
        exact WritesRequired.value (by unfold WritesNumber; decide)
      · rintro ⟨field, home⟩ same
        obtain rfl : field = .host := Field.name_injective same
        exact WritesOptional.null
    · simp only [List.forall_mem_cons]
      exact ⟨fun _ => zero, fun isUnknown => absurd rfl (isUnknown ⟨.port, rfl⟩),
        fun isUnknown => absurd rfl (isUnknown ⟨.host, rfl⟩), fun _ isNone => by cases isNone⟩
    · rintro ⟨field, home⟩ isGiven
      cases field with
      | port => exact .tail _ (.head _)
      | _ => cases isGiven
  have isFileText : IsFileText given text.toList := by
    have isObject : IsObject _ _ := .items
      (.more (called "x".toList (by decide) "\x7b\"\\ud800\":null\x7d".toList) <|
      .last (called "backend".toList (by decide)
        "\x7b\"level\": -0,\"p\\u006Frt\":2200,\"host\": null\x7d".toList))
    refine Eq.subst (motive := IsFileText given) ?_
      (.object noGap noGap isObject ⟨once_of_nodup (by decide), ?_, ?_, ?_⟩)
    · show _ = String.toList _
      decide +kernel
    · simp only [List.forall_mem_cons]
      refine ⟨?_, ?_, fun _ isNone => by cases isNone⟩
      · intro part same
        cases part <;> exact absurd same (by decide)
      · intro part same
        obtain rfl : part = .backend := Section.name_injective same
        exact backend
    · simp only [List.forall_mem_cons]
      exact ⟨fun _ => unknown, fun isUnknown => absurd rfl (isUnknown .backend),
        fun _ isNone => by cases isNone⟩
    · rintro part ⟨⟨field, rfl⟩, isGiven⟩
      cases field with
      | port => exact .tail _ (.head _)
      | _ => cases isGiven
  obtain ⟨config, isRead, isSet, isDefault⟩ := partial_files_are_read isFileText
  refine ⟨isFileText, config, isRead, ?_, ?_, ?_⟩
  · exact Option.some.inj (isSet .port 2200 rfl)
  · exact isDefault .host rfl
  · exact Option.some.inj (isDefault .connectTimeoutSecs rfl)

end Errand.Config
