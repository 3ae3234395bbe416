import NodeScript.Typing.TypeExpr

/-!
The operators of expressions, with their tokens in generated code and their titles.
-/

namespace NodeScript

/-- An operator with two operands. -/
inductive BinaryOperator where
  | add | subtract | multiply | divide | modulo
  | equals | notEquals | less | lessOrEqual | greater | greaterOrEqual
  | and | or
deriving DecidableEq, Repr, Inhabited

/-- An operator with one operand. -/
inductive UnaryOperator where
  | negate | not
deriving DecidableEq, Repr, Inhabited

/-- An operator of either kind. -/
inductive Operator where
  | binary (op : BinaryOperator)
  | unary (op : UnaryOperator)
deriving DecidableEq, Repr

namespace BinaryOperator

/-- All operators with two operands. -/
def all : List BinaryOperator :=
  [add, subtract, multiply, divide, modulo, equals, notEquals, less, lessOrEqual, greater,
    greaterOrEqual, and, or]

/-- The name that stored documents use. -/
def name : BinaryOperator → String
  | add => "Add"
  | subtract => "Subtract"
  | multiply => "Multiply"
  | divide => "Divide"
  | modulo => "Modulo"
  | equals => "Equals"
  | notEquals => "NotEquals"
  | less => "Less"
  | lessOrEqual => "LessOrEqual"
  | greater => "Greater"
  | greaterOrEqual => "GreaterOrEqual"
  | and => "And"
  | or => "Or"

/-- The operator of a name. -/
def ofName? (text : String) : Option BinaryOperator := all.find? (·.name = text)

/-- The title of a node for the operator. -/
def title : BinaryOperator → String
  | notEquals => "Not Equals"
  | lessOrEqual => "Less Or Equal"
  | greaterOrEqual => "Greater Or Equal"
  | op => op.name

/-- The token in generated code. -/
def token : BinaryOperator → String
  | add => "+"
  | subtract => "-"
  | multiply => "*"
  | divide => "/"
  | modulo => "%"
  | equals => "=="
  | notEquals => "!="
  | less => "<"
  | lessOrEqual => "<="
  | greater => ">"
  | greaterOrEqual => ">="
  | and => "&&"
  | or => "||"

/-- The operators that compute a number from numbers. -/
def isArithmetic : BinaryOperator → Bool
  | add | subtract | multiply | divide | modulo => true
  | _ => false

/-- The operators that compare by size. -/
def isOrdering : BinaryOperator → Bool
  | less | lessOrEqual | greater | greaterOrEqual => true
  | _ => false

/-- The operators that compare for equality. -/
def isEquality : BinaryOperator → Bool
  | equals | notEquals => true
  | _ => false

end BinaryOperator

namespace UnaryOperator

/-- All operators with one operand. -/
def all : List UnaryOperator := [negate, not]

/-- The name that stored documents use, which is also the title of a node for the operator. -/
def name : UnaryOperator → String
  | negate => "Negate"
  | not => "Not"

/-- The operator of a name. -/
def ofName? (text : String) : Option UnaryOperator := all.find? (·.name = text)

/-- The token in generated code. -/
def token : UnaryOperator → String
  | negate => "-"
  | not => "!"

end UnaryOperator

/-- The name that stored documents use. -/
def Operator.name : Operator → String
  | .binary op => op.name
  | .unary op => op.name

instance : ToString Operator := ⟨Operator.name⟩

end NodeScript
