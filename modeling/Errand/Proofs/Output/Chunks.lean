/-
# Output in chunks

Chunks of one kind are joined before anything is read from them, so where output was cut into
chunks cannot be told from its normal form, even if it was cut inside a character. Chunks of
different kinds have none. The complaint is about the first chunk if it is of a kind that cannot be
joined, and otherwise about the first one whose kind is not that of the first.

Bytes and text are joined by two loops that differ in nothing but the kind they expect and in how
the joined chunks are read. What is said of them here follows from the equations that both keep to.
-/
import Errand.Error
import Errand.Proofs.Text.Encoding
import Errand.Proofs.Text.Trimmed
import Mathlib.Data.Set.List

namespace Errand.Output

/-! ## Joining -/

/-- The equations of a loop that joins the chunks of one kind, and of what is read from them. -/
structure Joins {α : Type} (expected : Kind) (chunkOf : List α → Raw) (read : List α → Text)
    (join : Nat → List Raw → Except TypeFault (List α)) : Prop where
  made : ∀ chunk, chunk.kind = expected → ∃ part, chunkOf part = chunk
  nil : ∀ index, join index [] = .ok []
  cons : ∀ index part chunks,
    join index (chunkOf part :: chunks) = (join (index + 1) chunks).map (part ++ ·)
  other : ∀ index chunk chunks, chunk.kind ≠ expected →
    join index (chunk :: chunks) = .error (.mismatch index chunk.kind expected)
  readNil : read [] = []
  reads : ∀ part chunks,
    normalize (.chunks (chunkOf part :: chunks)) = (join 0 (chunkOf part :: chunks)).map read

theorem joins_bytes : Joins .bytes .bytes (fun bytes => (Utf8.decode bytes).trim) joinBytes where
  made chunk isBytes := by
    cases chunk with
    | bytes bytes => exact ⟨bytes, rfl⟩
    | absent | text | chunks => cases isBytes
  nil _ := rfl
  cons _ _ _ := rfl
  other index chunk chunks differs := by
    cases chunk with
    | bytes bytes => exact absurd rfl differs
    | absent | text | chunks => rfl
  readNil := rfl
  reads _ _ := rfl

theorem joins_text : Joins .text .text Text.trim joinText where
  made chunk isText := by
    cases chunk with
    | text text => exact ⟨text, rfl⟩
    | absent | bytes | chunks => cases isText
  nil _ := rfl
  cons _ _ _ := rfl
  other index chunk chunks differs := by
    cases chunk with
    | text text => exact absurd rfl differs
    | absent | bytes | chunks => rfl
  readNil := rfl
  reads _ _ := rfl

namespace Joins

variable {α : Type} {expected : Kind} {chunkOf : List α → Raw} {read : List α → Text}
  {join : Nat → List Raw → Except TypeFault (List α)}

/-- Chunks of one kind are made of parts. -/
theorem exists_parts (joins : Joins expected chunkOf read join) {chunks : List Raw}
    (same : ∀ chunk ∈ chunks, chunk.kind = expected) :
    ∃ parts : List (List α), parts.map chunkOf = chunks := by
  have made : chunks ∈ Set.range (List.map chunkOf) := by
    rw [Set.range_list_map]
    intro chunk member
    exact joins.made chunk (same chunk member)
  exact made

/-- They are joined in order. -/
theorem join_map (joins : Joins expected chunkOf read join) (index : Nat)
    (parts : List (List α)) : join index (parts.map chunkOf) = .ok parts.flatten := by
  induction parts generalizing index with
  | nil => exact joins.nil index
  | cons part parts ih =>
      rw [List.map_cons, joins.cons, ih]
      rfl

/-- The first chunk of another kind is the one complained of, whatever stands behind it. -/
theorem join_mismatch (joins : Joins expected chunkOf read join) (index : Nat)
    (parts : List (List α)) {other : Raw} (differs : other.kind ≠ expected) (behind : List Raw) :
    join index (parts.map chunkOf ++ other :: behind) =
      .error (.mismatch (index + parts.length) other.kind expected) := by
  induction parts generalizing index with
  | nil => exact joins.other index other behind differs
  | cons part parts ih =>
      rw [List.map_cons, List.cons_append, joins.cons, ih, List.length_cons]
      show Except.error _ = Except.error _
      rw [Nat.add_assoc, Nat.add_comm 1]

/-- Chunks of one kind are read once they are joined. -/
theorem normalize_map (joins : Joins expected chunkOf read join) (parts : List (List α)) :
    normalize (.chunks (parts.map chunkOf)) = .ok (read parts.flatten) := by
  cases parts with
  | nil =>
      rw [List.flatten_nil, joins.readNil]
      rfl
  | cons part parts =>
      rw [List.map_cons, joins.reads, ← List.map_cons, joins.join_map]
      rfl

/-- Chunks that begin with one kind and go on with another are not read. -/
theorem normalize_mismatch (joins : Joins expected chunkOf read join) {first other : Raw}
    {between : List Raw} (starts : first.kind = expected)
    (same : ∀ chunk ∈ between, chunk.kind = expected) (differs : other.kind ≠ expected)
    (behind : List Raw) : normalize (.chunks (first :: (between ++ other :: behind))) =
      .error (.mismatch (between.length + 1) other.kind expected) := by
  obtain ⟨part, rfl⟩ := joins.made first starts
  obtain ⟨parts, rfl⟩ := joins.exists_parts same
  have fails := joins.join_mismatch 0 (part :: parts) differs behind
  rw [List.map_cons, List.cons_append] at fails
  rw [joins.reads, fails, List.length_map, Nat.zero_add]
  rfl

end Joins

/-! ## The normal form of chunks -/

/-- What chunks are normalized to. -/
inductive Normalized : List Raw → Except TypeFault Text → Prop
  | bytes (parts : List (List UInt8)) :
      Normalized (parts.map .bytes) (.ok (Utf8.decode parts.flatten).trim)
  | text (parts : List Text) : Normalized (parts.map .text) (.ok (Text.trim parts.flatten))
  /-- Neither of the kinds that can be joined comes first. -/
  | badStart {first : Raw} (neither : first.kind = .absent ∨ first.kind = .chunks)
      (behind : List Raw) : Normalized (first :: behind) (.error (.badStart first.kind))
  /-- All chunks in front of `other` are of the kind of the first, and `other` is not. -/
  | mismatch {first other : Raw} {between : List Raw}
      (starts : first.kind = .bytes ∨ first.kind = .text)
      (same : ∀ chunk ∈ between, chunk.kind = first.kind) (differs : other.kind ≠ first.kind)
      (behind : List Raw) : Normalized (first :: (between ++ other :: behind))
        (.error (.mismatch (between.length + 1) other.kind first.kind))

/-- All chunks have a normal form or a fault. -/
theorem exists_normalized (chunks : List Raw) : ∃ result, Normalized chunks result := by
  cases chunks with
  | nil => exact ⟨_, .bytes []⟩
  | cons first rest =>
      by_cases starts : first.kind = .bytes ∨ first.kind = .text
      · cases found : rest.find? (fun chunk => chunk.kind ≠ first.kind) with
        | some other =>
            obtain ⟨differs, between, behind, rfl, before⟩ :=
              List.find?_eq_some_iff_append.mp found
            refine ⟨_, .mismatch starts (fun chunk member => ?_) (of_decide_eq_true differs)
              behind⟩
            simpa using before chunk member
        | none =>
            have same : ∀ chunk ∈ first :: rest, chunk.kind = first.kind := by
              rw [List.find?_eq_none] at found
              exact List.forall_mem_cons.mpr ⟨rfl, fun chunk member => by
                simpa using found chunk member⟩
            rcases starts with isBytes | isText
            · rw [isBytes] at same
              obtain ⟨parts, whole⟩ := joins_bytes.exists_parts same
              exact ⟨_, whole ▸ Normalized.bytes parts⟩
            · rw [isText] at same
              obtain ⟨parts, whole⟩ := joins_text.exists_parts same
              exact ⟨_, whole ▸ Normalized.text parts⟩
      · refine ⟨_, .badStart ?_ rest⟩
        cases first with
        | absent => exact .inl rfl
        | chunks => exact .inr rfl
        | bytes | text => simp [Raw.kind] at starts

/-- Chunks are normalized to what they have. -/
theorem Normalized.normalize_eq {chunks : List Raw} {result : Except TypeFault Text}
    (normalized : Normalized chunks result) : normalize (.chunks chunks) = result := by
  cases normalized with
  | bytes parts => exact joins_bytes.normalize_map parts
  | text parts => exact joins_text.normalize_map parts
  | @badStart first neither behind =>
      cases first with
      | absent | chunks => rfl
      | bytes | text => simp [Raw.kind] at neither
  | mismatch starts same differs behind =>
      rcases starts with isBytes | isText
      · rw [isBytes] at same differs ⊢
        exact joins_bytes.normalize_mismatch isBytes same differs behind
      · rw [isText] at same differs ⊢
        exact joins_text.normalize_mismatch isText same differs behind

/-- Nor to anything else. -/
theorem normalize_chunks_iff {chunks : List Raw} {result : Except TypeFault Text} :
    normalize (.chunks chunks) = result ↔ Normalized chunks result := by
  constructor
  · rintro rfl
    obtain ⟨result, normalized⟩ := exists_normalized chunks
    rwa [normalized.normalize_eq]
  · exact Normalized.normalize_eq

/-! ## Normalizing twice -/

/-- Every normal form is trimmed. -/
theorem isTrimmed_of_normalize {raw : Raw} {text : Text} (gives : normalize raw = .ok text) :
    text.IsTrimmed := by
  cases raw with
  | absent =>
      cases gives
      exact Text.isTrimmed_nil
  | bytes | text =>
      cases gives
      exact Text.isTrimmed_trim _
  | chunks chunks =>
      cases normalize_chunks_iff.mp gives with
      | bytes | text => exact Text.isTrimmed_trim _

/-- A normal form stays as it is, as text and as bytes. -/
theorem normalize_normalize {raw : Raw} {text : Text} (gives : normalize raw = .ok text) :
    normalize (.text text) = .ok text ∧ normalize (.bytes (Utf8.encode text)) = .ok text := by
  have trimmed := (isTrimmed_of_normalize gives).trim_eq
  constructor
  · rw [normalize, trimmed]
  · rw [normalize, Utf8.decode_encode, trimmed]

/-- Chunks of one kind have the normal form of what they are joined to, so it does not matter
where they were cut. Other chunks have none, and the complaint names the first one that does not
belong, by its kind and by its place unless it is the first of all. A normal form has itself for a
normal form. -/
theorem chunk_boundaries_are_invisible :
    (∀ chunks result, normalize (.chunks chunks) = result ↔ Normalized chunks result) ∧
    (∀ parts others : List (List UInt8), parts.flatten = others.flatten →
      normalize (.chunks (parts.map .bytes)) = normalize (.chunks (others.map .bytes))) ∧
    (∀ parts others : List Text, parts.flatten = others.flatten →
      normalize (.chunks (parts.map .text)) = normalize (.chunks (others.map .text))) ∧
    (∀ kind, (Error.type (.badStart kind)).message =
      "type error: " ++ ("cannot normalize a collection starting with " ++ kind.name)) ∧
    (∀ index found expected, (Error.type (.mismatch index found expected)).message =
      "type error: " ++ ("element " ++ toString index ++ " is " ++ found.name ++ ", expected " ++
        expected.name)) ∧
    ∀ raw text, normalize raw = .ok text →
      normalize (.text text) = .ok text ∧ normalize (.bytes (Utf8.encode text)) = .ok text := by
  refine ⟨fun _ _ => normalize_chunks_iff, fun parts others same => ?_,
    fun parts others same => ?_, fun _ => rfl, fun _ _ _ => rfl, fun _ _ => normalize_normalize⟩
  · rw [(Normalized.bytes parts).normalize_eq, (Normalized.bytes others).normalize_eq, same]
  · rw [(Normalized.text parts).normalize_eq, (Normalized.text others).normalize_eq, same]

/-- A character cut in two, with an empty chunk in between and blanks around it, and bytes behind
which a text is out of place. -/
theorem cut_character_is_normalized :
    normalize (.chunks ([[0x20, 0xC3], [], [0xA9, 0x0A]].map .bytes)) =
        normalize (.chunks ([[0x20], [0xC3, 0xA9], [0x0A]].map .bytes)) ∧
      normalize (.chunks [.bytes [0x20, 0xC3], .bytes [0xA9], .text ['x'], .absent]) =
        .error (.mismatch 2 .text .bytes) ∧
      normalize (.text ['é']) = .ok ['é'] ∧
      normalize (.bytes (Utf8.encode ['é'])) = .ok ['é'] := by
  obtain ⟨normal, regrouped, -, -, -, again⟩ := chunk_boundaries_are_invisible
  refine ⟨regrouped _ _ (by decide), (normal _ _).mpr ?_,
    again (.bytes [0x20, 0xC3, 0xA9, 0x0A]) _ (by decide)⟩
  exact @Normalized.mismatch (.bytes [0x20, 0xC3]) (.text ['x']) [.bytes [0xA9]] (.inl rfl)
    (by decide) (by decide) [.absent]

end Errand.Output
