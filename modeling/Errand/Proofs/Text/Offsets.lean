/-
# Cutting a text at offsets in bytes

The place of a reference is counted in bytes, and a text is a list of characters. An offset may
fall inside a character or behind the end, and then nothing can be cut there. Cutting is
therefore checked, and a cut that cannot be made gives nothing rather than some other part of the
text. A part can be cut out exactly if the text is that part with something before and behind it
that makes up the offsets.
-/
import Errand.Text.Utf8

namespace Errand.Utf8

@[simp] theorem size_nil : size [] = 0 := rfl

@[simp] theorem size_cons (c : Char) (text : Text) :
    size (c :: text) = c.utf8Size + size text := rfl

@[simp] theorem size_append (before behind : Text) :
    size (before ++ behind) = size before + size behind := by
  induction before with
  | nil => simp
  | cons c before ih => simp [ih, Nat.add_assoc]

/-- The text before an offset and the text behind it. -/
def cutAt? : Nat → Text → Option (Text × Text)
  | 0, text => some ([], text)
  | _ + 1, [] => none
  | offset + 1, c :: rest =>
    if c.utf8Size ≤ offset + 1 then
      (cutAt? (offset + 1 - c.utf8Size) rest).map fun (before, behind) => (c :: before, behind)
    else none

/-- The part of a text between two offsets. -/
def slice? (start stop : Nat) (text : Text) : Option Text := do
  let (front, _) ← cutAt? stop text
  let (_, part) ← cutAt? start front
  return part

/-- The text with a value in place of what stands between two offsets. -/
def replaceSlice? (start stop : Nat) (value text : Text) : Option Text := do
  let (front, behind) ← cutAt? stop text
  let (before, _) ← cutAt? start front
  return before ++ value ++ behind

theorem cutAt?_append (before behind : Text) :
    cutAt? (size before) (before ++ behind) = some (before, behind) := by
  induction before with
  | nil => rw [size_nil, List.nil_append, cutAt?]
  | cons c before ih =>
      have taken := c.utf8Size_pos
      obtain ⟨offset, next⟩ : ∃ offset, size (c :: before) = offset + 1 :=
        Nat.exists_eq_add_one.mpr (by rw [size_cons]; omega)
      have whole : c.utf8Size ≤ offset + 1 := by rw [← next, size_cons]; omega
      have left : offset + 1 - c.utf8Size = size before := by rw [← next, size_cons]; omega
      rw [next, List.cons_append, cutAt?, if_pos whole, left, ih]
      rfl

/-- A cut loses nothing, and what stands before it takes as many bytes as the offset says. -/
theorem cutAt?_eq_some_iff {offset : Nat} {text before behind : Text} :
    cutAt? offset text = some (before, behind) ↔
      text = before ++ behind ∧ size before = offset := by
  constructor
  · intro cut
    induction text generalizing offset before with
    | nil =>
        cases offset with
        | zero =>
            cases cut
            exact ⟨rfl, rfl⟩
        | succ offset => cases cut
    | cons c rest ih =>
        cases offset with
        | zero =>
            cases cut
            exact ⟨rfl, rfl⟩
        | succ offset =>
            rw [cutAt?] at cut
            split at cut
            · next whole =>
                obtain ⟨⟨front, further⟩, later, same⟩ := Option.map_eq_some_iff.mp cut
                cases same
                obtain ⟨rfl, taken⟩ := ih later
                refine ⟨rfl, ?_⟩
                rw [size_cons, taken]
                omega
            · cases cut
  · rintro ⟨rfl, rfl⟩
    exact cutAt?_append before behind

/-- The offsets of a slice lie inside the text and between characters. -/
theorem slice?_eq_some_iff {start stop : Nat} {text part : Text} :
    slice? start stop text = some part ↔
      ∃ before behind, text = before ++ part ++ behind ∧ size before = start ∧
        size (before ++ part) = stop := by
  simp only [slice?, Option.bind_eq_bind, Option.bind_eq_some_iff, Prod.exists,
    cutAt?_eq_some_iff]
  constructor
  · rintro ⟨front, behind, ⟨rfl, stops⟩, before, _, ⟨rfl, starts⟩, ⟨⟩⟩
    exact ⟨before, behind, rfl, starts, stops⟩
  · rintro ⟨before, behind, rfl, starts, stops⟩
    exact ⟨before ++ part, behind, ⟨rfl, stops⟩, before, part, ⟨rfl, starts⟩, rfl⟩

theorem replaceSlice?_append (before part behind value : Text) :
    replaceSlice? (size before) (size before + size part) value (before ++ part ++ behind) =
      some (before ++ value ++ behind) := by
  rw [replaceSlice?, ← size_append, cutAt?_append]
  simp only [Option.bind_eq_bind, Option.bind_some, cutAt?_append]
  rfl

end Errand.Utf8
