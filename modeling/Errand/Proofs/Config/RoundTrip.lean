/-
# Configurations that are written and read back

The text of a configuration is a file that gives all of its fields but the password, each with its
value. So it is read back as what it was written from, less the password, whatever characters its
texts contain and however large its numbers are. What the text does not tell is only the password.
-/
import Errand.Config.Encode
import Errand.Proofs.Config.Documents
import Mathlib.Data.List.Nodup

namespace Errand.Config

open Json

/-! ## Objects without gaps -/

theorem separated_join {α : Type} {writes : α → Text → Prop} {item : α} {items : List α}
    {text : Text} {texts : List Text} (one : writes item text)
    (others : List.Forall₂ writes items texts) :
    Separated writes (item :: items) (Text.join [','] (text :: texts)) := by
  induction others generalizing item text with
  | nil => exact .last one
  | cons next _ ih =>
      rw [Text.join, List.append_assoc, List.singleton_append]
      · exact .more one (ih next)
      · exact List.cons_ne_nil _ _

theorem isMember_quoted (name : String) (value : Text) :
    IsMember Spells (name.toList, value) (quoted name.toList ++ [':'] ++ value) := by
  have padded : IsMember Spells (name.toList, value) _ :=
    .padded isGapText_nil (spells_flatMap_quotedChar name.toList) isGapText_nil isGapText_nil
      isGapText_nil
  simpa [quoted] using padded

/-- Members between braces are an object of them. -/
theorem isObject_objectJson (member : String × Text) (members : List (String × Text)) :
    IsObject ((member :: members).map fun (name, value) => (name.toList, value))
      (objectJson (member :: members)) := by
  have others : List.Forall₂ (IsMember Spells)
      (members.map fun (name, value) => (name.toList, value))
      (members.map fun (name, value) => quoted name.toList ++ [':'] ++ value) := by
    rw [List.forall₂_map_left_iff, List.forall₂_map_right_iff, List.forall₂_same]
    exact fun member _ => isMember_quoted member.1 member.2
  exact .items (separated_join (isMember_quoted member.1 member.2) others)

/-- Members that a record knows, each once, are a record. -/
theorem isRecord_map {ι : Type} {name : ι → Text} {writes : ι → Text → Prop} {needed : ι → Prop}
    {given : List ι} {written : ι → Text} (injective : Function.Injective name)
    (distinct : given.Nodup) (writesAll : ∀ i ∈ given, writes i (written i))
    (complete : ∀ i, needed i → i ∈ given) :
    IsRecord name writes needed (given.map fun i => (name i, written i)) where
  once := once_of_nodup <| by
    rw [List.map_map]
    exact distinct.map injective
  known := by
    intro member isMember i same
    obtain ⟨j, isGiven, rfl⟩ := List.mem_map.mp isMember
    obtain rfl := injective same
    exact writesAll i isGiven
  unknown := by
    intro member isMember isUnknown
    obtain ⟨i, -, rfl⟩ := List.mem_map.mp isMember
    exact absurd rfl (isUnknown i)
  complete := by
    intro i isNeeded
    rw [List.map_map]
    exact List.mem_map_of_mem (complete i isNeeded)

/-! ## Written values -/

theorem quotes_quoted (text : Text) : Quotes text (quoted text) :=
  .quoted (spells_flatMap_quotedChar text)

theorem writesOptional_optionalJson {α : Type} {writes : α → Text → Prop} {write : α → Text}
    (isWritten : ∀ value, writes value (write value)) (value : Option α) :
    WritesOptional writes value (optionalJson write value) := by
  cases value with
  | none => exact .null
  | some value => exact .value (isWritten value)

/-- The configuration with another password, or with none. -/
def withPassword (config : Config) (password : Option Text) : Config :=
  { config with backend := { config.backend with password := password } }

/-- What a configuration gives in its text. -/
def shown (config : Config) : Layer := (config.withPassword none).layer

/-- The value of a field as it stands in the text of a configuration. A password never does. -/
def fieldJson (config : Config) : Field → Text
  | .host => optionalJson quoted config.backend.host
  | .user => optionalJson quoted config.backend.user
  | .password => []
  | .port => natJson config.backend.port.toNat
  | .timeoutSecs => optionalJson (fun secs => natJson secs.toNat) config.execution.timeoutSecs
  | .maxRetryTimes => natJson config.execution.maxRetryTimes.toNat
  | .connectTimeoutSecs => natJson config.execution.connectTimeoutSecs.toNat
  | .level => quoted config.logging.level

theorem writes_fieldJson (config : Config) {field : Field} (isShown : field ≠ .password) :
    field.Writes (config.shown field) (config.fieldJson field) := by
  have secs (secs : UInt64) : WritesNumber UInt64.toNat secs (natJson secs.toNat) := rfl
  cases field with
  | password => exact absurd rfl isShown
  | host | user => exact writesOptional_optionalJson quotes_quoted _
  | timeoutSecs => exact writesOptional_optionalJson secs _
  | port | maxRetryTimes | connectTimeoutSecs => exact .value rfl
  | level => exact .value (quotes_quoted _)

/-! ## Written sections -/

/-- The fields that stand in the text of a section. -/
def Section.shownFields : (part : Section) → List part.Field
  | .backend => [⟨.host, rfl⟩, ⟨.user, rfl⟩, ⟨.port, rfl⟩]
  | .execution => [⟨.timeoutSecs, rfl⟩, ⟨.maxRetryTimes, rfl⟩, ⟨.connectTimeoutSecs, rfl⟩]
  | .logging => [⟨.level, rfl⟩]

theorem Section.mem_shownFields_iff {part : Section} (field : part.Field) :
    field ∈ part.shownFields ↔ field.1 ≠ .password := by
  obtain ⟨field, rfl⟩ := field
  cases field <;> decide

/-- The value of a section as it stands in the text of a configuration. -/
def sectionJson (config : Config) : Section → Text
  | .backend => config.backend.toJson
  | .execution => config.execution.toJson
  | .logging => config.logging.toJson

theorem isObject_sectionJson (config : Config) (part : Section) :
    IsObject (part.shownFields.map fun field => (field.1.name, config.fieldJson field.1))
      (config.sectionJson part) := by
  cases part with
  | backend => exact isObject_objectJson ("host", _) [("user", _), ("port", _)]
  | execution =>
      exact isObject_objectJson ("timeout_secs", _)
        [("max_retry_times", _), ("connect_timeout_secs", _)]
  | logging => exact isObject_objectJson ("level", _) []

/-- The text of a section gives its fields but the password. -/
theorem isText_sectionJson (config : Config) (part : Section) :
    part.IsText config.shown (config.sectionJson part) := by
  refine ⟨_, isObject_sectionJson config part, isRecord_map ?_ ?_ ?_ ?_⟩
  · exact fun field other same => Subtype.ext (Field.name_injective same)
  · cases part <;> decide
  · exact fun field isShown => writes_fieldJson config (part.mem_shownFields_iff field |>.mp isShown)
  · intro field isGiven
    refine (part.mem_shownFields_iff field).mpr fun isPassword => ?_
    rw [isPassword] at isGiven
    cases isGiven

/-- The text of a configuration is a file that gives its fields but the password. -/
theorem isFileText_toJson (config : Config) : IsFileText config.shown config.toJson := by
  have isObject : IsObject
      ([Section.backend, .execution, .logging].map fun part => (part.name, config.sectionJson part))
      config.toJson :=
    isObject_objectJson ("backend", _) [("execution", _), ("logging", _)]
  have isFileText := IsFileText.object isGapText_nil isGapText_nil isObject
    (isRecord_map Section.name_injective (by decide)
      (fun part _ => isText_sectionJson config part) fun part _ => by cases part <;> decide)
  rwa [List.nil_append, List.append_nil] at isFileText

/-- What a configuration gives in its text, laid over the defaults, is the configuration without
its password. -/
theorem shown_onto_standard (config : Config) :
    config.shown.onto standard = config.withPassword none := by
  apply layer_injective
  funext field
  rw [layer_onto, layer_standard]
  cases field with
  | host | user | password | timeoutSecs => exact Option.or_none
  | port | maxRetryTimes | connectTimeoutSecs | level => rfl

theorem ofFile_toJson (config : Config) :
    ofFile (some (.ok (Utf8.encode config.toJson))) = .ok (config.withPassword none) := by
  rw [ofFile_of_isFileText (isFileText_toJson config), shown_onto_standard]

/-- A configuration that is written and read back is the same without its password. Its text is the
same whatever the password is, and tells everything else. -/
theorem written_configurations_are_read_back (config : Config) :
    ofFile (some (.ok (Utf8.encode config.toJson))) = .ok (config.withPassword none) ∧
      (∀ password, (config.withPassword password).toJson = config.toJson) ∧
      ∀ other : Config, other.toJson = config.toJson →
        other.withPassword none = config.withPassword none := by
  refine ⟨ofFile_toJson config, fun password => rfl, fun other same => ?_⟩
  have reads := ofFile_toJson other
  rw [same, ofFile_toJson config] at reads
  exact (Except.ok.inj reads).symm

end Errand.Config
