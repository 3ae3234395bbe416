import NodeScript.Constant
import NodeScript.Text.Alphanumeric
import NodeScript.Text.Lowercase

/-!
Identifiers of generated code, made from names that people gave.

Expressions of generated code and their text. An operand that is a binary operation stands in
parentheses; nothing else does.
-/

namespace NodeScript

/-! ### Identifiers -/

/-- The characters that an identifier may hold. -/
def isIdentifierChar (c : Char) : Bool := isAlphanumeric c || c == '_'

/-- Whether a text can stand as an identifier: it is not empty and starts with no digit. -/
def startsIdentifier : List Char → Bool
  | [] => false
  | c :: _ => !c.isDigit

/-- The identifier of a name: what no identifier may hold is left out, and an underscore is put in
front where the rest could not stand by itself. -/
def sanitize (name : String) : String :=
  let kept := name.toList.filter isIdentifierChar
  String.ofList (if startsIdentifier kept then kept else '_' :: kept)

/-- The stem of the locals that are named after something: its identifier, with a small first
letter. -/
def localStem (name : String) : String :=
  match (sanitize name).toList with
  | [] => ""
  | c :: rest => String.ofList (lowerChar c ++ rest)

/-! ### Expressions -/

/-- An expression of generated code. -/
inductive Expr where
  /-- A literal by its text. -/
  | literal (text : String)
  /-- The name of a local, a field, a parameter or a type. -/
  | ident (name : String)
  /-- The object that the code runs on. -/
  | this
  /-- A member of an object. -/
  | member (target : Expr) (name : String)
  /-- A call of a method of the class itself. -/
  | call (method : String) (typeArgs : List String) (args : List Expr)
  /-- A call of a method on an object or a type. -/
  | callOn (target : Expr) (method : String) (typeArgs : List String) (args : List Expr)
  | binary (token : String) (lhs rhs : Expr)
  | unary (token : String) (operand : Expr)
  /-- The default value of a type. -/
  | defaultOf (type : String)
deriving Repr, Inhabited

/-- A call with or without a target and without type arguments. -/
def Expr.invoke (target : Option Expr) (method : String) (args : List Expr) : Expr :=
  match target with
  | some target => .callOn target method [] args
  | none => .call method [] args

/-- A string literal. -/
def Expr.quoted (text : String) : Expr := .literal (String.ofList (quoteLiteral text.toList))

/-- Whether the expression is a binary operation. -/
def Expr.isBinary : Expr → Bool
  | .binary _ _ _ => true
  | _ => false

/-- The text of an expression as an operand. -/
def Expr.operandChars (e : Expr) (chars : List Char) : List Char :=
  if e.isBinary then '(' :: chars ++ [')'] else chars

/-- Parts of a list with a comma and a blank between them. -/
def commaSeparated (parts : List (List Char)) : List Char :=
  [',', ' '].intercalate parts

/-- The type arguments of a call, which are left out if there are none. -/
def typeArgChars (typeArgs : List String) : List Char :=
  if typeArgs.isEmpty then [] else '<' :: commaSeparated (typeArgs.map String.toList) ++ ['>']

mutual

/-- The text of an expression. -/
def Expr.chars : Expr → List Char
  | .literal text => text.toList
  | .ident name => name.toList
  | .this => "this".toList
  | .member target name => target.operandChars target.chars ++ '.' :: name.toList
  | .call method typeArgs args =>
    method.toList ++ typeArgChars typeArgs ++ '(' :: commaSeparated (Expr.charsAll args) ++ [')']
  | .callOn target method typeArgs args =>
    target.operandChars target.chars ++ '.' :: method.toList ++ typeArgChars typeArgs
      ++ '(' :: commaSeparated (Expr.charsAll args) ++ [')']
  | .binary token lhs rhs =>
    lhs.operandChars lhs.chars ++ ' ' :: token.toList ++ ' ' :: rhs.operandChars rhs.chars
  | .unary token operand => token.toList ++ operand.operandChars operand.chars
  | .defaultOf type => "default(".toList ++ type.toList ++ [')']

/-- The texts of the expressions of a list. -/
def Expr.charsAll : List Expr → List (List Char)
  | [] => []
  | e :: rest => e.chars :: Expr.charsAll rest

end

/-- The text of an expression. -/
def Expr.text (e : Expr) : String := String.ofList e.chars

/-- The literal of a number of a type that has names for the values that no numeral denotes. -/
def numberLiteral (typeName : String) (numeral : Reading → String) : Reading → String
  | .nan _ => typeName ++ ".NaN"
  | .infinite false => typeName ++ ".PositiveInfinity"
  | .infinite true => typeName ++ ".NegativeInfinity"
  | finite => numeral finite

/-- The expression of a value. A whole 64-bit number shows that it is not an integer by `.0`. -/
def Constant.expr : Constant → Expr
  | .bool value => .literal (boolText value)
  | .int value => .literal (intText value.toInt)
  | .float value => .literal (numberLiteral "float" (NumberStyle.plain.render · ++ "f") value.read)
  | .double value => .literal (numberLiteral "double" NumberStyle.stored.render value.read)
  | .string value => .quoted value
  | .enumMember typeName member => .literal s!"{typeName}.{member}"
  | .null => .literal "null"
  | .defaultOf handle => .defaultOf handle.text

end NodeScript
