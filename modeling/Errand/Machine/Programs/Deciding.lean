/-
# Programs that decide, calculate or wait
-/
import Errand.Machine.Program

namespace Errand.Machine.Programs

open Program

/-- End with a fixed code: `true` and `false`. -/
def ending (code : Int) : Program := fun _ _ => .finished 0 [] [] code

/-- The test that a word with one operand makes. -/
def unaryTest? (setting : Setting) (operator operand : Text) : Option Bool :=
  let node : Option Node := (setting.files.resolve setting.place operand).toOption.map (·.2)
  match operator with
  | ['-', 'n'] => some !operand.isEmpty
  | ['-', 'z'] => some operand.isEmpty
  | ['-', 'e'] => some node.isSome
  | ['-', 'r'] => some node.isSome
  | ['-', 'd'] => some (node == some .directory)
  | ['-', 'f'] => some (match node with
    | some (.file _) => true
    | some (.program _) => true
    | _ => false)
  | ['-', 'x'] => some (match node with
    | some .directory => true
    | some (.program _) => true
    | _ => false)
  | ['-', 's'] => some (match node with
    | some (.file contents) => !contents.isEmpty
    | some .directory => true
    | some (.program _) => true
    | _ => false)
  | _ => none

/-- The comparison that a word between two numbers makes. -/
def numberTest? (operator : Text) (left right : Int) : Option Bool :=
  match operator with
  | ['-', 'e', 'q'] => some (left = right)
  | ['-', 'n', 'e'] => some (left ≠ right)
  | ['-', 'l', 't'] => some (left < right)
  | ['-', 'l', 'e'] => some (left ≤ right)
  | ['-', 'g', 't'] => some (right < left)
  | ['-', 'g', 'e'] => some (right ≤ left)
  | _ => none

/-- The verdict of a condition, or a complaint about it. -/
def condition (setting : Setting) : List Text → Except Text Bool
  | [] => .ok false
  | [word] => .ok !word.isEmpty
  | [operator, operand] =>
    if operator = ['!'] then .ok operand.isEmpty
    else match unaryTest? setting operator operand with
      | some verdict => .ok verdict
      | none => .error (['\''] ++ operator ++ "': unary operator expected".toList)
  | ['!'] :: words => (condition setting words).map (!·)
  | [left, operator, right] =>
    if operator = ['='] ∨ operator = ['=', '='] then .ok (left = right)
    else if operator = ['!', '='] then .ok (left ≠ right)
    else match integer? left, integer? right with
      | some leftValue, some rightValue =>
        match numberTest? operator leftValue rightValue with
        | some verdict => .ok verdict
        | none => .error (['\''] ++ operator ++ "': binary operator expected".toList)
      | none, _ => .error ("invalid integer '".toList ++ left ++ ['\''])
      | _, none => .error ("invalid integer '".toList ++ right ++ ['\''])
  | _ => .error "too many arguments".toList

/-- The code of a condition, with a complaint under the name of the program. -/
def conditionOutcome (name : String) (setting : Setting) (words : List Text) : Outcome :=
  match condition setting words with
  | .ok verdict => .finished 0 [] [] (if verdict then 0 else 1)
  | .error complaint => .complains (lineOf (name.toList ++ ": ".toList ++ complaint)) 2

/-- Test a condition: `test`. -/
def tested : Program := fun setting _ => conditionOutcome "test" setting setting.args

/-- Test a condition in brackets: `[`. -/
def bracketed : Program := fun setting _ =>
  if setting.args.getLast? = some [']'] then conditionOutcome "[" setting setting.args.dropLast
  else .complains (lineOf "[: missing ']'".toList) 2

/-- A binary operation of `expr` on two words, if it is one. -/
def operation? (operator left right : Text) : Option (Except Text Text) :=
  let arithmetic (f : Int → Int → Int) : Except Text Text :=
    match integer? left, integer? right with
    | some leftValue, some rightValue => .ok (Decimal.ofInt (f leftValue rightValue))
    | _, _ => .error "non-integer argument".toList
  let divisor := integer? right == some 0 && (integer? left).isSome
  let truth (verdict : Bool) : Except Text Text := .ok (if verdict then ['1'] else ['0'])
  let compare (order : Int → Int → Bool) (texts : Text → Text → Bool) : Except Text Text :=
    match integer? left, integer? right with
    | some leftValue, some rightValue => truth (order leftValue rightValue)
    | _, _ => truth (texts left right)
  match operator with
  | ['+'] => some (arithmetic (· + ·))
  | ['-'] => some (arithmetic (· - ·))
  | ['*'] => some (arithmetic (· * ·))
  | ['/'] => some (if divisor then .error "division by zero".toList else arithmetic Int.tdiv)
  | ['%'] => some (if divisor then .error "division by zero".toList else arithmetic Int.tmod)
  | ['='] => some (compare (· == ·) (· == ·))
  | ['!', '='] => some (compare (· != ·) (· != ·))
  | ['<'] => some (compare (· < ·) (fun a b => decide (a < b)))
  | ['>'] => some (compare (· > ·) (fun a b => decide (b < a)))
  | ['<', '='] => some (compare (· ≤ ·) (fun a b => !decide (b < a)))
  | ['>', '='] => some (compare (· ≥ ·) (fun a b => !decide (a < b)))
  | _ => none

/-- Operations carried out from left to right. -/
def chain (value : Text) : List Text → Except Text Text
  | [] => .ok value
  | operator :: right :: words => do
    match operation? operator value right with
    | some outcome => chain (← outcome) words
    | none => throw "syntax error".toList
  | [_] => .error "syntax error".toList

/-- Calculate: `expr`. The code says whether the value is empty or zero. -/
def calculated : Program := fun setting _ =>
  match setting.args with
  | [] => missingOperand "expr"
  | first :: words =>
    match chain first words with
    | .ok value =>
      .finished 0 (Utf8.encode (lineOf value)) [] (if value = [] ∨ value = ['0'] then 1 else 0)
    | .error complaint => .complains (lineOf ("expr: ".toList ++ complaint)) 2

/-- The nanoseconds of a number of seconds with decimals. -/
def decimalNanos? (text : Text) : Option Nat :=
  match text.cut? '.' with
  | none => (Decimal.digits? text).map (· * 1000000000)
  | some (whole, decimals) => do
    let seconds ← if whole.isEmpty then some 0 else Decimal.digits? whole
    let part ← Decimal.digits? ((decimals ++ List.replicate 9 '0').take 9)
    if decimals.all Char.isDigit then some (seconds * 1000000000 + part) else none

/-- The nanoseconds of a span such as `1.5` or `2m`. -/
def spanNanos? (text : Text) : Option Nat :=
  match text.getLast? with
  | some 's' => decimalNanos? text.dropLast
  | some 'm' => (decimalNanos? text.dropLast).map (· * 60)
  | some 'h' => (decimalNanos? text.dropLast).map (· * 3600)
  | some 'd' => (decimalNanos? text.dropLast).map (· * 86400)
  | _ => decimalNanos? text

/-- Wait: `sleep`. -/
def waiting : Program := fun setting _ =>
  match setting.args with
  | [] => missingOperand "sleep"
  | spans =>
    match spans.find? fun span => span ≠ "infinity".toList ∧ (spanNanos? span).isNone with
    | some odd => usage "sleep" ("invalid time interval '" ++ Text.toString odd ++ "'") 1
    | none =>
      if spans.contains "infinity".toList then .stuck
      else .finished ((spans.filterMap spanNanos?).foldr (· + ·) 0) [] [] 0

end Errand.Machine.Programs
