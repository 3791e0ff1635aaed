/-
# Complete control sequences

What a terminal is sent is text with carriage returns and control sequences in between. A
sequence that is complete ends where it began, in text with no character unfinished, and shows
nothing on the way. So it may stand between any two texts, and what comes through of the whole
is the texts in a row.

Nothing bounds a sequence. It may have any number of parameters and intermediates, and a command
may hold any bytes but those that end it: the recognizer counts none of them, it only knows in
which part of the sequence it stands.
-/
import Errand.Proofs.Output.Clean

namespace Errand.Output.Terminal

/-- How a command of the operating system ends: with BEL, or with ESC and a backslash. -/
inductive Terminator where
  | bell
  | backslash
  deriving DecidableEq, Repr

def Terminator.bytes : Terminator → List UInt8
  | .bell => [0x07]
  | .backslash => [0x1B, 0x5C]

/-- A part of what a terminal is sent, from text to text. -/
inductive Segment where
  | text (shown : Text) (clean : ∀ c ∈ shown, IsClean c)
  | carriageReturn
  /-- `ESC [`, parameters and intermediates in any order, and a final byte. -/
  | control (body : List UInt8) (final : UInt8)
      (inBody : ∀ byte ∈ body, within 0x20 byte 0x3F = true) (ends : within 0x40 final 0x7E = true)
  /-- `ESC ]`, any bytes but BEL, CAN, SUB and ESC, and a terminator. -/
  | command (payload : List UInt8) (terminator : Terminator)
      (unended : ∀ byte ∈ payload, byte ∉ [0x07, 0x18, 0x1A, 0x1B])
  /-- ESC, at least one intermediate, and a final byte. -/
  | escape (intermediates : List UInt8) (final : UInt8) (some : intermediates ≠ [])
      (between : ∀ byte ∈ intermediates, within 0x20 byte 0x2F = true)
      (ends : within 0x30 final 0x7E = true)

/-- A segment as it is sent. -/
def Segment.bytes : Segment → List UInt8
  | .text shown _ => Utf8.encode shown
  | .carriageReturn => [0x0D]
  | .control body final _ _ => 0x1B :: 0x5B :: (body ++ [final])
  | .command payload terminator _ => 0x1B :: 0x5D :: (payload ++ terminator.bytes)
  | .escape intermediates final _ _ _ => 0x1B :: (intermediates ++ [final])

/-- What a segment shows. -/
def Segment.shows : Segment → Text
  | .text shown _ => shown
  | _ => []

/-! ## Bytes that show nothing -/

section Silence

variable {state middle next : State} {byte : UInt8} {bytes : List UInt8}

/-- From one state these bytes lead to another and let nothing through. -/
def LeadsTo (state : State) (bytes : List UInt8) (next : State) : Prop :=
  ∀ rest, plainFrom [] state (bytes ++ rest) = plainFrom [] next rest

theorem LeadsTo.nil (state : State) : LeadsTo state [] state := fun _ => rfl

theorem LeadsTo.cons (steps : step state byte = (middle, []))
    (later : LeadsTo middle bytes next) : LeadsTo state (byte :: bytes) next := by
  intro rest
  rw [List.cons_append, plainFrom_cons, steps]
  exact later rest

theorem LeadsTo.append {more : List UInt8} (leads : LeadsTo state bytes middle)
    (later : LeadsTo middle more next) : LeadsTo state (bytes ++ more) next := by
  intro rest
  rw [List.append_assoc, leads, later]

/-- Where each of some bytes keeps the recognizer in states of one kind and shows nothing, all of
them together do. -/
theorem exists_leadsTo (keeps : State → Prop) (bytes : List UInt8)
    (stays : ∀ byte ∈ bytes, ∀ state, keeps state →
      ∃ next, keeps next ∧ step state byte = (next, []))
    (here : keeps state) : ∃ next, keeps next ∧ LeadsTo state bytes next := by
  induction bytes generalizing state with
  | nil => exact ⟨state, here, .nil state⟩
  | cons byte bytes ih =>
      obtain ⟨staysHere, staysBehind⟩ := List.forall_mem_cons.mp stays
      obtain ⟨middle, kept, steps⟩ := staysHere state here
      obtain ⟨next, keptToo, leads⟩ := ih staysBehind kept
      exact ⟨next, keptToo, .cons steps leads⟩

theorem within_iff {low high : UInt8} : within low byte high = true ↔ low ≤ byte ∧ byte ≤ high := by
  rw [within, Bool.and_eq_true, decide_eq_true_eq, decide_eq_true_eq]

/-- Two ranges that do not overlap have no byte in common. -/
theorem not_within {low high least most : UInt8} (apart : high < least)
    (inRange : within low byte high = true) : within least byte most = false := by
  rw [Bool.eq_false_iff, Ne, within_iff]
  rintro ⟨above, -⟩
  have below := UInt8.le_trans above (within_iff.mp inRange).2
  exact absurd (UInt8.lt_of_lt_of_le apart below) (UInt8.lt_irrefl high)

/-- A byte from the space on is not acted on as a control byte. -/
theorem isExecutable_of_le (printable : 0x20 ≤ byte) : isExecutable byte = false := by
  rw [UInt8.le_iff_toNat_le] at printable
  simp only [isExecutable, UInt8.lt_iff_toNat_lt, UInt8.le_iff_toNat_le, ← UInt8.toNat_inj,
    UInt8.reduceToNat] at printable ⊢
  simp only [Bool.or_eq_false_iff, Bool.and_eq_false_iff, decide_eq_false_iff_not]
  omega

/-- Nor does it end a sequence everywhere. -/
theorem anywhere_of_le (state : State) (printable : 0x20 ≤ byte) : anywhere state byte = state := by
  rw [UInt8.le_iff_toNat_le] at printable
  have other (c : UInt8) (low : c.toNat < 0x20) : byte ≠ c := by
    rintro rfl
    exact absurd printable (Nat.not_le.mpr low)
  simp [anywhere, other 0x18 (by decide), other 0x1A (by decide), other 0x1B (by decide)]

end Silence

/-! ## Control sequences -/

section Control

variable {state : State} {byte : UInt8}

/-- Whether a state is inside a control sequence. -/
def State.isControl : State → Bool
  | .csiEntry => true
  | .csiParam => true
  | .csiIntermediate => true
  | .csiIgnore => true
  | _ => false

theorem step_of_isControl (inside : state.isControl = true) (printable : 0x20 ≤ byte) :
    step state byte = (csi state byte, []) := by
  have acts : step state byte = inControl state byte := by
    cases state <;> first | rfl | cases inside
  rw [acts, inControl, isExecutable_of_le printable]
  rfl

/-- A parameter or an intermediate goes on with a control sequence, in whatever place. -/
theorem isControl_csi (inside : state.isControl = true) (inBody : within 0x20 byte 0x3F = true) :
    (csi state byte).isControl = true := by
  rw [csi, not_within (by decide) inBody, anywhere_of_le state (within_iff.mp inBody).1]
  repeat' split
  all_goals first | assumption | rfl

theorem leadsTo_control {body : List UInt8} {final : UInt8}
    (inBody : ∀ byte ∈ body, within 0x20 byte 0x3F = true) (ends : within 0x40 final 0x7E = true) :
    LeadsTo .escape (0x5B :: (body ++ [final])) .start := by
  obtain ⟨last, inside, leads⟩ : ∃ last, last.isControl = true ∧ LeadsTo .csiEntry body last := by
    refine exists_leadsTo (·.isControl = true) body (fun byte member state inside => ?_) rfl
    have printable := (within_iff.mp (inBody byte member)).1
    exact ⟨_, isControl_csi inside (inBody byte member), step_of_isControl inside printable⟩
  have printable : 0x20 ≤ final := UInt8.le_trans (by decide) (within_iff.mp ends).1
  have finished : step last final = (.start, []) := by
    rw [step_of_isControl inside printable, csi, if_pos ends]
  exact .cons (by decide) (leads.append (.cons finished (.nil .start)))

end Control

/-! ## Other sequences -/

theorem leadsTo_command {payload : List UInt8} (terminator : Terminator)
    (unended : ∀ byte ∈ payload, byte ∉ [0x07, 0x18, 0x1A, 0x1B]) :
    LeadsTo .escape (0x5D :: (payload ++ terminator.bytes)) .start := by
  obtain ⟨last, rfl, leads⟩ : ∃ last, last = .oscString ∧ LeadsTo .oscString payload last := by
    refine exists_leadsTo (· = .oscString) payload ?_ rfl
    rintro byte member state rfl
    have unended := unended byte member
    simp only [List.mem_cons, List.not_mem_nil, or_false, not_or] at unended
    refine ⟨.oscString, rfl, ?_⟩
    rw [step, if_neg unended.1]
    simp [anywhere, unended]
  have finished : LeadsTo .oscString terminator.bytes .start := by
    have escapes : step .oscString 0x1B = (.escape, []) := by decide
    have finishes : step .escape 0x5C = (.start, []) := by decide
    have rings : step .oscString 0x07 = (.start, []) := by decide
    cases terminator with
    | bell => exact .cons rings (.nil .start)
    | backslash => exact .cons escapes (.cons finishes (.nil .start))
  exact .cons (by decide) (leads.append finished)

theorem step_intermediate {byte : UInt8} (between : within 0x20 byte 0x2F = true) :
    step .escape byte = (.escapeIntermediate, []) ∧
      step .escapeIntermediate byte = (.escapeIntermediate, []) := by
  have printable := (within_iff.mp between).1
  constructor
  · rw [step, isExecutable_of_le printable, escaped, if_pos between]
    rfl
  · rw [step, isExecutable_of_le printable, not_within (by decide) between,
      anywhere_of_le _ printable]
    rfl

theorem leadsTo_intermediates {intermediates : List UInt8} {final : UInt8}
    (some : intermediates ≠ []) (between : ∀ byte ∈ intermediates, within 0x20 byte 0x2F = true)
    (ends : within 0x30 final 0x7E = true) :
    LeadsTo .escape (intermediates ++ [final]) .start := by
  obtain ⟨first, others, rfl⟩ := List.exists_cons_of_ne_nil some
  obtain ⟨isFirst, areOthers⟩ := List.forall_mem_cons.mp between
  obtain ⟨last, rfl, leads⟩ : ∃ last, last = .escapeIntermediate ∧
      LeadsTo .escapeIntermediate others last := by
    refine exists_leadsTo (· = .escapeIntermediate) others ?_ rfl
    rintro byte member state rfl
    exact ⟨_, rfl, (step_intermediate (areOthers byte member)).2⟩
  have printable : 0x20 ≤ final := UInt8.le_trans (by decide) (within_iff.mp ends).1
  have finished : step .escapeIntermediate final = (.start, []) := by
    rw [step, isExecutable_of_le printable, if_pos ends]
    rfl
  exact .cons (step_intermediate isFirst).1 (leads.append (.cons finished (.nil .start)))

/-! ## Any number of segments -/

/-- Clean text is shown as it is, and leaves no character unfinished. -/
theorem plainFrom_encode {text : Text} (clean : ∀ c ∈ text, IsClean c) (rest : List UInt8) :
    plainFrom [] .start (Utf8.encode text ++ rest) = text ++ plainFrom [] .start rest := by
  rw [State.start, plainFrom_ground_append none (escape_not_mem_encode clean), Utf8.run_encode,
    flatMap_shown_char clean]

/-- A segment shows its text and leads back to text. -/
theorem plainFrom_segment (segment : Segment) (rest : List UInt8) :
    plainFrom [] .start (segment.bytes ++ rest) = segment.shows ++ plainFrom [] .start rest := by
  have escape {bytes : List UInt8} (leads : LeadsTo .escape bytes .start) :
      LeadsTo .start (0x1B :: bytes) .start := .cons (by decide) leads
  cases segment with
  | text shown clean => exact plainFrom_encode clean rest
  | carriageReturn =>
      have silent : step .start 0x0D = (.start, []) := by decide
      exact LeadsTo.cons silent (.nil .start) rest
  | control body final inBody ends => exact escape (leadsTo_control inBody ends) rest
  | command payload terminator unended => exact escape (leadsTo_command terminator unended) rest
  | escape intermediates final some between ends =>
      exact escape (leadsTo_intermediates some between ends) rest

theorem plainFrom_segments (segments : List Segment) (rest : List UInt8) :
    plainFrom [] .start (segments.flatMap Segment.bytes ++ rest) =
      segments.flatMap Segment.shows ++ plainFrom [] .start rest := by
  induction segments with
  | nil => rfl
  | cons segment segments ih =>
      rw [List.flatMap_cons, List.append_assoc, plainFrom_segment, ih, List.flatMap_cons,
        List.append_assoc]

/-- Of text, carriage returns and complete sequences, in any order, the text comes through and
nothing else, and whatever is sent behind them is read as if it stood alone. -/
theorem complete_sequences_vanish (segments : List Segment) :
    strip (segments.flatMap Segment.bytes) = Utf8.encode (segments.flatMap Segment.shows) ∧
      ∀ rest, strip (segments.flatMap Segment.bytes ++ rest) =
        Utf8.encode (segments.flatMap Segment.shows) ++ strip rest := by
  have behind (rest : List UInt8) : strip (segments.flatMap Segment.bytes ++ rest) =
      Utf8.encode (segments.flatMap Segment.shows) ++ strip rest := by
    rw [strip, plainText, plainFrom_segments, Utf8.encode, List.flatMap_append]
    rfl
  refine ⟨?_, behind⟩
  have alone := behind []
  have nothing : strip [] = [] := rfl
  rwa [nothing, List.append_nil, List.append_nil] at alone

end Errand.Output.Terminal
