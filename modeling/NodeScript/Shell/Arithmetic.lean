import NodeScript.OrderedMap
import NodeScript.Shell.Format

/-!
Arithmetic in scripts: integers of the size of words, which wrap around, with operators that bind as
tightly as is usual, and variables that can be set.
-/

namespace NodeScript.Shell

/-- A word or sign of an expression. -/
inductive ArithToken where
  | number (n : Nat)
  | name (name : Bytes)
  | sign (sign : String)
deriving DecidableEq, Repr, Inhabited

/-- The operators of two operands, those that bind the least tightly first. -/
def binaryLevels : List (List String) :=
  [["||"], ["&&"], ["|"], ["^"], ["&"], ["==", "!="], ["<=", ">=", "<", ">"], ["<<", ">>"],
    ["+", "-"], ["*", "/", "%"]]

/-- The signs that set a variable, with the operator that is used in doing so. -/
def settingSigns : List (String × Option String) :=
  [("=", none), ("+=", some "+"), ("-=", some "-"), ("*=", some "*"), ("/=", some "/"),
    ("%=", some "%"), ("<<=", some "<<"), (">>=", some ">>"), ("&=", some "&"), ("|=", some "|"),
    ("^=", some "^")]

/-- The signs of expressions, each before those that it starts with. -/
def arithSigns : List String :=
  ["<<=", ">>=", "||", "&&", "==", "!=", "<=", ">=", "<<", ">>", "+=", "-=", "*=", "/=", "%=", "&=",
    "|=", "^=", "|", "^", "&", "<", ">", "+", "-", "*", "/", "%", "=", "!", "~", "?", ":", "(", ")"]

/-- The tokens of an expression. -/
def readArith : (budget : Bytes) → Bytes → Option (List ArithToken)
  | [], _ => some []
  | _ :: budget, text =>
    match text with
    | [] => some []
    | c :: rest =>
      if c = ' ' || c = '\t' || c = '\n' then readArith budget rest
      else if c.isDigit then
        let (n, after) := takeNatural text
        (readArith budget after).map (.number n :: ·)
      else if isVariableStart c then
        (readArith budget (text.dropWhile isVariableChar)).map
          (.name (text.takeWhile isVariableChar) :: ·)
      else do
        let (sign, after) ← arithSigns.findSome? fun sign =>
          (sign.toList.isPrefixOf? text).map (sign, ·)
        (readArith budget after).map (.sign sign :: ·)

/-- An expression. -/
inductive Arith where
  | number (n : Nat)
  | variable (name : Bytes)
  | unary (sign : String) (operand : Arith)
  | binary (sign : String) (left right : Arith)
  | choice (condition thenBe elseBe : Arith)
  | setting (name : Bytes) (sign : Option String) (value : Arith)
deriving Inhabited

/-- The part of an expression that is being read: at what level, or behind an operand. -/
inductive ArithGoal where
  | all
  | choice
  | level (operators : List (List String))
  | further (operators : List (List String)) (left : Arith)
  | operand

/-- Reads a part of an expression, and gives what is left. -/
def parseArith : (budget : Nat) → ArithGoal → List ArithToken → Option (Arith × List ArithToken)
  | 0, _, _ => none
  | budget + 1, .all, tokens => do
    let setting? : Option (Bytes × Option String × List ArithToken) :=
      match tokens with
      | .name name :: .sign sign :: rest =>
        (settingSigns.lookup sign).map fun operator => (name, operator, rest)
      | _ => none
    match setting? with
    | some (name, operator, rest) =>
      let (value, rest) ← parseArith budget .all rest
      return (.setting name operator value, rest)
    | none => parseArith budget .choice tokens
  | budget + 1, .choice, tokens => do
    let (condition, rest) ← parseArith budget (.level binaryLevels) tokens
    match rest with
    | .sign "?" :: rest =>
      let (thenBe, rest) ← parseArith budget .all rest
      match rest with
      | .sign ":" :: rest =>
        let (elseBe, rest) ← parseArith budget .choice rest
        return (.choice condition thenBe elseBe, rest)
      | _ => none
    | _ => return (condition, rest)
  | budget + 1, .level [], tokens => parseArith budget .operand tokens
  | budget + 1, .level (operators :: tighter), tokens => do
    let (left, rest) ← parseArith budget (.level tighter) tokens
    parseArith budget (.further (operators :: tighter) left) rest
  | budget + 1, .further levels left, tokens =>
    match levels, tokens with
    | operators :: tighter, .sign sign :: rest =>
      if operators.contains sign then do
        let (right, rest) ← parseArith budget (.level tighter) rest
        parseArith budget (.further levels (.binary sign left right)) rest
      else some (left, tokens)
    | _, _ => some (left, tokens)
  | budget + 1, .operand, tokens =>
    match tokens with
    | .number n :: rest => some (.number n, rest)
    | .name name :: rest => some (.variable name, rest)
    | .sign "(" :: rest => do
      let (inside, rest) ← parseArith budget .all rest
      match rest with
      | .sign ")" :: rest => return (inside, rest)
      | _ => none
    | .sign sign :: rest =>
      if ["+", "-", "!", "~"].contains sign then
        (parseArith budget .operand rest).map fun (operand, after) => (.unary sign operand, after)
      else none
    | [] => none

/-- The expression of a text. -/
def arithOf? (text : Bytes) : Option Arith := do
  let tokens ← readArith text text
  if tokens.isEmpty then return .number 0
  let (expression, rest) ← parseArith (20 * tokens.length + 20) .all tokens
  if rest.isEmpty then return expression else none

/-- An integer of the size of a word, wrapped around. -/
def wrapInteger (n : Int) : Int := (n - leastPlaced) % (Nat.pow 2 64 : Int) + leastPlaced

/-- What became of two operands, unless nothing can. -/
def applyArith? (sign : String) (a b : Int) : Option Int :=
  let truth (p : Bool) : Int := if p then 1 else 0
  let bits (f : Nat → Nat → Nat) : Int := wrapInteger (f (asUnsigned a) (asUnsigned b) : Nat)
  match sign with
  | "+" => some (wrapInteger (a + b))
  | "-" => some (wrapInteger (a - b))
  | "*" => some (wrapInteger (a * b))
  | "/" => if b = 0 then none else some (wrapInteger (a.tdiv b))
  | "%" => if b = 0 then none else some (a.tmod b)
  | "<<" => some (wrapInteger (a * (Nat.pow 2 (asUnsigned b % 64) : Int)))
  | ">>" => some (a / (Nat.pow 2 (asUnsigned b % 64) : Int))
  | "&" => some (bits Nat.land)
  | "|" => some (bits Nat.lor)
  | "^" => some (bits Nat.xor)
  | "==" => some (truth (a = b))
  | "!=" => some (truth (a ≠ b))
  | "<" => some (truth (a < b))
  | ">" => some (truth (b < a))
  | "<=" => some (truth (a ≤ b))
  | ">=" => some (truth (b ≤ a))
  | _ => none

/-- The evaluation of expressions over variables. It fails with a message. -/
abbrev Evaluation := StateT (OrderedMap Bytes Bytes) (Except String)

/-- The digits of an integer. -/
def integerText (n : Int) : Bytes := bytesOf (toString n)

/-- The integer that the text of a variable stands for. -/
def integerOf? (text : Bytes) : Option Int :=
  if text.all (· == ' ') then some 0
  else
    let (n, after) := takeInteger text
    if after.isEmpty then some (wrapInteger n) else none

/-- The value of an expression. The operands of `&&`, `||` and a choice are looked at only if they
matter. -/
def Arith.value : Arith → Evaluation Int
  | .number n => return wrapInteger n
  | .variable name => variableValue name
  | .unary sign operand => do
    let n ← operand.value
    match sign with
    | "-" => return wrapInteger (-n)
    | "!" => return if n = 0 then 1 else 0
    | "~" => return -n - 1
    | _ => return n
  | .binary sign left right => do
    let a ← left.value
    match sign with
    | "&&" => if a = 0 then return 0 else return truth (← right.value)
    | "||" => if a ≠ 0 then return 1 else return truth (← right.value)
    | _ => apply sign a (← right.value)
  | .choice condition thenBe elseBe => do
    if (← condition.value) ≠ 0 then thenBe.value else elseBe.value
  | .setting name sign value => do
    let b ← value.value
    let result ←
      match sign with
      | none => pure b
      | some sign => do apply sign (← variableValue name) b
    modify (·.insert name (integerText result))
    return result
where
  /-- One for all that is not zero. -/
  truth (n : Int) : Int := if n = 0 then 0 else 1
  /-- The value of a variable, zero if it is not set. -/
  variableValue (name : Bytes) : Evaluation Int := do
    let text := ((← get).get? name).getD []
    match integerOf? text with
    | some n => return n
    | none => throw ("Illegal number: " ++ textOf text)
  /-- What becomes of two operands. -/
  apply (sign : String) (a b : Int) : Evaluation Int :=
    match applyArith? sign a b with
    | some n => return n
    | none => throw "division by zero"

/-- The value of an expression by its text, and the variables behind it. -/
def evaluateArith (text : Bytes) (values : OrderedMap Bytes Bytes) :
    Except String (Int × OrderedMap Bytes Bytes) :=
  let about (message : String) : String := message ++ ": \"" ++ textOf text ++ "\""
  match arithOf? text with
  | none => .error (about "arithmetic expression: expecting primary")
  | some expression =>
    (expression.value.run values).mapError fun message =>
      if message = "division by zero" then about ("arithmetic expression: " ++ message) else message

end NodeScript.Shell
