import NodeScript.Shell.Utility

/-!
Conditions that scripts ask for by words: of texts, of integers and of files.
-/

namespace NodeScript.Shell

/-- What a path leads to. -/
inductive PathKind where
  | file (empty : Bool)
  | directory
  | device
deriving DecidableEq, Repr

/-- What is wrong with a condition. -/
inductive ConditionFault where
  | illegalNumber (word : Bytes)
  | argumentExpected
  | unexpectedOperator (word : Bytes)
deriving DecidableEq, Repr

/-- The wording of the fault. -/
def ConditionFault.message : ConditionFault → Bytes
  | .illegalNumber word => bytesOf "Illegal number: " ++ word
  | .argumentExpected => bytesOf "argument expected"
  | .unexpectedOperator word => word ++ bytesOf ": unexpected operator"

/-- A condition of two words, by the sign between them. -/
inductive Comparison where
  | texts (holds : Bytes → Bytes → Bool)
  | numbers (holds : Int → Int → Bool)

/-- The conditions of two words. -/
def comparisons : List (String × Comparison) :=
  [("=", .texts fun a b => a = b), ("!=", .texts fun a b => a ≠ b),
    ("<", .texts fun a b => !bytesBefore b a),
    (">", .texts fun a b => !bytesBefore a b),
    ("-eq", .numbers fun a b => a = b), ("-ne", .numbers fun a b => a ≠ b),
    ("-lt", .numbers fun a b => a < b), ("-le", .numbers fun a b => a ≤ b),
    ("-gt", .numbers fun a b => b < a), ("-ge", .numbers fun a b => b ≤ a)]

/-- The condition between two words, if the sign stands for one. -/
def comparison? (sign : Bytes) : Option Comparison :=
  comparisons.lookup (textOf sign)

/-- Whether a condition of one word holds, if the sign stands for one. -/
def unary? (kindOf : Bytes → Option PathKind) (sign word : Bytes) : Option Bool :=
  let kind := kindOf word
  match sign with
  | ['-', 'n'] => some !word.isEmpty
  | ['-', 'z'] => some word.isEmpty
  | ['-', c] =>
    if c = 'e' || c = 'r' || c = 'w' then some kind.isSome
    else if c = 'f' then some (match kind with
      | some (.file _) => true
      | _ => false)
    else if c = 'd' || c = 'x' then some (kind = some .directory)
    else if c = 's' then some (kind = some (.file false) || kind = some .directory)
    else if c = 'c' then some (kind = some .device)
    else if c = 't' || c = 'h' || c = 'L' || c = 'p' || c = 'b' || c = 'S' then some false
    else none
  | _ => none

/-- The integer that a word of a condition is. -/
def conditionNumber (word : Bytes) : Except ConditionFault Int :=
  let trimmed := word.filter (· ≠ ' ')
  let signed := trimmed.head? = some '-' || trimmed.head? = some '+'
  let digits := if signed then trimmed.tail else trimmed
  if digits.isEmpty || !digits.all Char.isDigit then .error (.illegalNumber word)
  else .ok (if trimmed.head? = some '-' then -(digitsValue digits) else digitsValue digits)

/-- The part of a condition that is being read. -/
inductive ConditionGoal where
  | any
  | all
  | single

/-- Whether the condition at the start of some words holds, and the words behind it. -/
def readCondition (kindOf : Bytes → Option PathKind) :
    (budget : Nat) → ConditionGoal → List Bytes → Except ConditionFault (Bool × List Bytes)
  | 0, _, _ => .error .argumentExpected
  | budget + 1, .any, words => do
    let (first, rest) ← readCondition kindOf budget .all words
    match rest with
    | ['-', 'o'] :: rest =>
      let (second, rest) ← readCondition kindOf budget .any rest
      return (first || second, rest)
    | _ => return (first, rest)
  | budget + 1, .all, words => do
    let (first, rest) ← readCondition kindOf budget .single words
    match rest with
    | ['-', 'a'] :: rest =>
      let (second, rest) ← readCondition kindOf budget .all rest
      return (first && second, rest)
    | _ => return (first, rest)
  | budget + 1, .single, words =>
    let compared : Option (Except ConditionFault (Bool × List Bytes)) :=
      match words with
      | a :: sign :: b :: rest =>
        (comparison? sign).map fun
          | .texts holds => .ok (holds a b, rest)
          | .numbers holds => do return (holds (← conditionNumber a) (← conditionNumber b), rest)
      | _ => none
    match compared with
    | some result => result
    | none =>
      match words with
      | [] => .error .argumentExpected
      | [word] => .ok (!word.isEmpty, [])
      | ['!'] :: rest => (readCondition kindOf budget .single rest).map fun (holds, after) =>
          (!holds, after)
      | ['('] :: rest => do
        let (holds, rest) ← readCondition kindOf budget .any rest
        match rest with
        | [')'] :: rest => return (holds, rest)
        | _ => throw .argumentExpected
      | sign :: word :: rest =>
        match unary? kindOf sign word with
        | some holds => .ok (holds, rest)
        | none => if rest.isEmpty then .ok (!sign.isEmpty, word :: rest)
          else .error (.unexpectedOperator sign)

/-- Whether a condition holds. -/
def conditionHolds (kindOf : Bytes → Option PathKind) (words : List Bytes) :
    Except ConditionFault Bool :=
  if words.isEmpty then .ok false
  else do
    let (holds, rest) ← readCondition kindOf (3 * words.length + 3) .any words
    match rest with
    | [] => return holds
    | word :: _ => throw (.unexpectedOperator word)

end NodeScript.Shell
