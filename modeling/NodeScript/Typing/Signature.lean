import NodeScript.Constant
import NodeScript.Typing.Operator

/-!
What is known about types: their members, methods and operators, and the questions that graphs and
their translation ask about them.
-/

namespace NodeScript

/-- Whether members of objects or of the type itself are wanted. -/
inductive MemberFilter where
  | ofInstances | static | all
deriving DecidableEq, Repr, Inhabited

/-- Whether a filter lets a member pass. -/
def MemberFilter.accepts (filter : MemberFilter) (isStatic : Bool) : Bool :=
  match filter with
  | .ofInstances => !isStatic
  | .static => isStatic
  | .all => true

/-- What a member is. -/
inductive MemberKind where
  | field | property | method
deriving DecidableEq, Repr, Inhabited

/-- A member of a type; the type of a method is that of its result. -/
structure Member where
  name : String
  kind : MemberKind
  type : TypeExpr
  isStatic : Bool
deriving DecidableEq, Repr, Inhabited

/-- A method by the name of its type and its own name. -/
structure MethodRef where
  declaringType : String
  name : String
deriving DecidableEq, Repr, Inhabited

/-- The text of a reference. -/
def MethodRef.text (m : MethodRef) : String := m.declaringType ++ "." ++ m.name

/-- A parameter of a method. -/
structure Parameter where
  name : String
  type : TypeExpr
deriving DecidableEq, Repr, Inhabited

/-- A method with its types. -/
structure MethodSignature where
  declaringType : TypeExpr
  name : String
  isStatic : Bool
  /-- The type variables of the method itself. -/
  genericParameters : List String
  parameters : List Parameter
  returnType : TypeExpr
deriving DecidableEq, Repr, Inhabited

namespace MethodSignature

/-- The reference to the method. -/
def ref (m : MethodSignature) : MethodRef := ⟨m.declaringType.name, m.name⟩

/-- The types of the inputs: the object, unless the method is static, and the parameters. -/
def inputTypes (m : MethodSignature) : List TypeExpr :=
  (if m.isStatic then [] else [m.declaringType]) ++ m.parameters.map (·.type)

/-- The types of all slots: the inputs, then the result. -/
def slotTypes (m : MethodSignature) : List TypeExpr := m.inputTypes ++ [m.returnType]

/-- The type variables of the declaring type, then those of the method. -/
def typeVariables (m : MethodSignature) : List String :=
  m.genericParameters.foldl addName m.declaringType.vars

/-- Whether something about the method has to be inferred. -/
def isGeneric (m : MethodSignature) : Bool := !m.typeVariables.isEmpty

/-- Turns the type variables of the declaring type and of the method into variables. -/
def bindParams (typeLevel : List String) (m : MethodSignature) : MethodSignature :=
  let all := typeLevel ++ m.genericParameters
  { m with
    declaringType := m.declaringType.bindParams typeLevel
    parameters := m.parameters.map fun p => { p with type := p.type.bindParams all }
    returnType := m.returnType.bindParams all }

end MethodSignature

/-- One way to apply an operator. -/
structure OperatorSignature where
  op : Operator
  operands : List TypeExpr
  result : TypeExpr
deriving DecidableEq, Repr

/-- The questions about types that graphs and their translation ask. -/
structure TypeOracle where
  /-- The known type that a handle denotes. -/
  resolve : TypeHandle → Option TypeExpr
  /-- Whether a type is a type of numbers. -/
  isNumeric : TypeExpr → Bool
  /-- The ways to apply an operator to two types; the first one counts. -/
  binaryOverloads : BinaryOperator → TypeExpr → TypeExpr → List OperatorSignature
  /-- The ways to apply an operator to a type; the first one counts. -/
  unaryOverloads : UnaryOperator → TypeExpr → List OperatorSignature
  members : TypeExpr → MemberFilter → List Member
  method? : MethodRef → Option MethodSignature
  /-- The types that a type converts to by itself, in one step. -/
  supertypes : TypeExpr → List TypeExpr
  /-- The value that a type has by default. -/
  defaultValue : TypeExpr → Constant

end NodeScript
