import NodeScript.Shell.Arithmetic
import NodeScript.Shell.Pattern
import NodeScript.Shell.State

/-!
What the words of a script become: the values of parameters, the output of commands and the results
of arithmetic are put in, and what is not quoted of that is split into fields.
-/

namespace NodeScript.Shell

/-- How text came into a word. -/
inductive TextKind where
  /-- It stands there. -/
  | literal
  /-- It is quoted, and stays as it is. -/
  | quoted
  /-- It was put in, and is split. -/
  | expanded
deriving DecidableEq, Repr

/-- A part of a word in which everything has been put in. -/
inductive FieldPart where
  | text (text : Bytes) (kind : TextKind)
  /-- One field ends and the next starts. -/
  | boundary
  /-- No argument stands here, so that quotes around it make no field. -/
  | nothing
deriving Repr

/-- The text of parts as a single field. -/
def joinParts (parts : List FieldPart) : Bytes :=
  parts.flatMap fun
    | .text text _ => text
    | .boundary => [' ']
    | .nothing => []

/-- The characters of parts, with whether they are quoted. -/
def markParts (parts : List FieldPart) : List (Char × Bool) :=
  parts.flatMap fun
    | .text text kind => text.map fun c => (c, kind = .quoted)
    | .boundary => [(' ', true)]
    | .nothing => []

/-- Fields that have been found, the last first, and the one that is being read. -/
structure Splitting where
  fields : List Bytes
  current : Option Bytes
  /-- Whether blanks have ended the last field, so that a separator behind them belongs to its end.
  -/
  blankEnd : Bool

namespace Splitting

/-- Ends the field that is being read, if one is. -/
def close (s : Splitting) : Splitting :=
  match s.current with
  | some text => ⟨text :: s.fields, none, false⟩
  | none => s

/-- Adds text to the field that is being read. -/
def add (s : Splitting) (text : Bytes) : Splitting :=
  { s with current := some (s.current.getD [] ++ text), blankEnd := false }

/-- Splits at a character that was put in, if it separates fields. -/
def addSplit (separators : Bytes) (s : Splitting) (c : Char) : Splitting :=
  if !separators.contains c then s.add [c]
  else if c = ' ' || c = '\t' || c = '\n' then
    if s.current.isSome then { s.close with blankEnd := true } else s
  else if s.blankEnd then { s with blankEnd := false }
  else ⟨s.current.getD [] :: s.fields, none, false⟩

/-- Adds a part of a word. -/
def addPart (separators : Bytes) (s : Splitting) : FieldPart → Splitting
  | .text text .literal => if text.isEmpty then s else s.add text
  | .text text .quoted => s.add text
  | .text text .expanded => text.foldl (addSplit separators) s
  | .boundary => s.close
  | .nothing => if s.current = some [] then { s with current := none } else s

end Splitting

/-- The fields of the parts of a word. -/
def splitParts (separators : Bytes) (parts : List FieldPart) : List Bytes :=
  (parts.foldl (Splitting.addPart separators) ⟨[], none, false⟩).close.fields.reverse

/-- A text without the line breaks at its end. -/
def dropLastBreaks (text : Bytes) : Bytes := (text.reverse.dropWhile (· == '\n')).reverse

namespace Run

/-- The characters that separate fields. -/
def separators : Run Bytes := do
  return ((← valueOf? "IFS".toList).getD " \t\n".toList)

/-- The value of a parameter, if it is set. -/
def parameter? (name : Bytes) : Run (Option Bytes) := do
  let e ← environment
  match name with
  | ['@'] => return some (List.intercalate [' '] e.arguments)
  | ['*'] => return some (List.intercalate ((← separators).take 1) e.arguments)
  | ['#'] => return some (integerText e.arguments.length)
  | ['?'] => return some (integerText e.status)
  | ['$'] => return some processNumber
  | ['-'] => return some []
  | ['!'] => return none
  | ['0'] => return some e.name
  | c :: _ =>
    if c.isDigit then return e.arguments[digitsValue name - 1]?
    else valueOf? name
  | [] => return none

/-- The value of an arithmetic expression. -/
def arithmetic (text : Bytes) : Run Bytes := do
  match evaluateArith text (← environment).values with
  | .ok (n, values) =>
    changeEnvironment fun e => { e with values }
    return integerText n
  | .error message => failShell (bytesOf message)

/-- The parts of all arguments of the script. -/
def argumentParts (all : Char) (quoted : Bool) : Run (List FieldPart) := do
  let arguments := (← environment).arguments
  if quoted && all = '*' then
    return [.text (List.intercalate ((← separators).take 1) arguments) .quoted]
  else if quoted && arguments.isEmpty then return [.nothing]
  else
    let kind := if quoted then TextKind.quoted else .expanded
    return (arguments.map fun argument => FieldPart.text argument kind).intersperse .boundary

/-- Reads an operand as a word. -/
def operandWord (quoted : Bool) (operand : Bytes) : Run Word := do
  match readWhole quoted operand with
  | .ok word => return word
  | .error message => failShell (bytesOf message)

/-- The parts of a word in which everything is put in. `substitute` gives the output of a script. -/
def partsOf (substitute : Bytes → Run Bytes) : (budget : Nat) → Word → Run (List FieldPart)
  | 0, _ => return []
  | _, [] => return []
  | budget + 1, piece :: rest => do
    let parts ←
      match piece with
      | .literal text quoted =>
        pure [FieldPart.text text (if quoted then .quoted else .literal)]
      | .expansion content quoted => do
        let kind := if quoted then TextKind.quoted else .expanded
        match content with
        | .command script => pure [.text (dropLastBreaks (← substitute script)) kind]
        | .arithmetic expression => do
          let inside ← partsOf substitute budget (← operandWord true expression)
          pure [.text (← arithmetic (joinParts inside)) kind]
        | .parameter name use operand => do
          let value ← parameter? name
          let operandParts : Run (List FieldPart) := do
            let inside ← partsOf substitute budget (← operandWord quoted operand)
            return inside.map fun
              | .text text .literal => .text text .expanded
              | part => part
          let pattern : Run Pattern := do
            return patternOf (markParts
              (← partsOf substitute budget (← operandWord false operand)))
          let present (empty : Bool) : Bool :=
            match value with
            | some text => !(empty && text.isEmpty)
            | none => false
          let own : Run (List FieldPart) := do
            match name with
            | ['@'] => argumentParts '@' quoted
            | ['*'] => argumentParts '*' quoted
            | _ => return [.text (value.getD []) kind]
          match use with
          | .value =>
            if value.isNone && (← environment).wantsValues then
              failShell (name ++ bytesOf ": parameter not set")
            else own
          | .length => pure [.text (integerText (value.getD []).length) kind]
          | .orElse empty => if present empty then own else operandParts
          | .orAssign empty =>
            if present empty then own
            else do
              let text := joinParts (← operandParts)
              setVariable name text
              pure [.text text kind]
          | .orFail empty =>
            if present empty then own
            else do
              let message := joinParts (← operandParts)
              failShell (name ++ bytesOf ": " ++
                if !message.isEmpty then message
                else if empty then bytesOf "parameter not set or null"
                else bytesOf "parameter not set")
          | .instead empty => if present empty then operandParts else pure []
          | .withoutStart longest =>
            pure [.text ((← pattern).dropPrefix longest (value.getD [])) kind]
          | .withoutEnd longest =>
            pure [.text ((← pattern).dropSuffix longest (value.getD [])) kind]
    return parts ++ (← partsOf substitute budget rest)

/-- How deep words may be nested. -/
def wordBudget : Nat := 10000

/-- The text of a word that is not split. -/
def expandText (substitute : Bytes → Run Bytes) (word : Word) : Run Bytes := do
  return joinParts (← partsOf substitute wordBudget word)

/-- The pattern of a word. -/
def expandPattern (substitute : Bytes → Run Bytes) (word : Word) : Run Pattern := do
  return patternOf (markParts (← partsOf substitute wordBudget word))

/-- The fields of words. -/
def expandFields (substitute : Bytes → Run Bytes) (words : List Word) : Run (List Bytes) := do
  let fields ← words.mapM fun word => do
    return splitParts (← separators) (← partsOf substitute wordBudget word)
  return fields.flatten

end Run

end NodeScript.Shell
