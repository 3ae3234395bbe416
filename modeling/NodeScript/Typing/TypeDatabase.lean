import NodeScript.Typing.Signature
import NodeScript.Typing.TypeText

/-!
A register of types, methods and operators that answers the questions of a `TypeOracle`. What is
registered later replaces what has the same name, and type variables are bound on registration.
-/

namespace NodeScript

/-- What a registered type is. -/
inductive TypeKind where
  | primitive | struct | reference | interface
  /-- An enumeration with its members. -/
  | enumeration (values : List String)
deriving DecidableEq, Repr, Inhabited

/-- A registered type. -/
structure TypeInfo where
  name : String
  kind : TypeKind
  genericParameters : List String
  /-- The width of a type of numbers; a wider one wins over a narrower one. -/
  numericRank : Option UInt8
  members : List Member
  supertypes : List TypeExpr
deriving DecidableEq, Repr, Inhabited

namespace TypeInfo

/-- A type without members. -/
def plain (name : String) (kind : TypeKind) : TypeInfo := ⟨name, kind, [], none, [], []⟩

/-- A type of numbers. -/
def numeric (name : String) (rank : UInt8) : TypeInfo :=
  { plain name .primitive with numericRank := some rank }

/-- Declares type variables. -/
def withGenerics (info : TypeInfo) (params : List String) : TypeInfo :=
  { info with genericParameters := params }

/-- The type of a text, with the type variables bound. -/
def typeOf (info : TypeInfo) (text : String) : TypeExpr :=
  (TypeExpr.ofText text).bindParams info.genericParameters

/-- Adds a field. -/
def withField (info : TypeInfo) (name type : String) : TypeInfo :=
  { info with members := info.members ++ [⟨name, .field, info.typeOf type, false⟩] }

/-- Adds a property. -/
def withProperty (info : TypeInfo) (name type : String) : TypeInfo :=
  { info with members := info.members ++ [⟨name, .property, info.typeOf type, false⟩] }

/-- Adds a type that the type converts to. -/
def withSupertype (info : TypeInfo) (type : String) : TypeInfo :=
  { info with supertypes := info.supertypes ++ [info.typeOf type] }

/-- What the type variables stand for in an instance of the type. -/
def bindingsFor (info : TypeInfo) (t : TypeExpr) : Bindings :=
  .ofList (info.genericParameters.zip t.args)

/-- Turns the declared type variables into variables. -/
def bindParams (info : TypeInfo) : TypeInfo :=
  { info with
    members := info.members.map fun m => { m with type := m.type.bindParams info.genericParameters }
    supertypes := info.supertypes.map (·.bindParams info.genericParameters) }

end TypeInfo

namespace MethodSignature

/-- A static method without parameters and result. -/
def static (declaringType name : String) : MethodSignature :=
  ⟨.ofText declaringType, name, true, [], [], .plain "void"⟩

/-- A method of objects without parameters and result. -/
def onInstance (declaringType name : String) : MethodSignature :=
  { static declaringType name with isStatic := false }

/-- Declares a type variable. -/
def generic (m : MethodSignature) (name : String) : MethodSignature :=
  { m with genericParameters := m.genericParameters ++ [name] }

/-- Adds a parameter. -/
def param (m : MethodSignature) (name type : String) : MethodSignature :=
  { m with parameters := m.parameters ++ [⟨name, .ofText type⟩] }

/-- Sets the type of the result. -/
def returns (m : MethodSignature) (type : String) : MethodSignature :=
  { m with returnType := .ofText type }

end MethodSignature

/-- Registered types, methods and operators. -/
structure TypeDatabase where
  types : OrderedMap String TypeInfo
  methods : List MethodSignature
  operators : List OperatorSignature
  /-- The type of the object that generated code runs on. -/
  thisType : String
deriving DecidableEq

namespace TypeDatabase

/-- The type that scripts run on unless another one is named. -/
def defaultThisType : String := "GameObject"

/-- Nothing is registered. -/
def empty : TypeDatabase := ⟨∅, [], [], defaultThisType⟩

instance : Inhabited TypeDatabase := ⟨empty⟩

/-- The entry of a type. -/
def typeInfo? (db : TypeDatabase) (name : String) : Option TypeInfo := db.types.get? name

/-- Registers a type in place of an earlier one of its name. -/
def registerType (db : TypeDatabase) (info : TypeInfo) : TypeDatabase :=
  { db with types := db.types.insert info.name info.bindParams }

/-- The type variables of a registered type. -/
def genericsOf (db : TypeDatabase) (name : String) : List String :=
  ((db.typeInfo? name).map (·.genericParameters)).getD []

/-- Registers a method behind the others, and removes an earlier one of its reference. -/
def registerMethod (db : TypeDatabase) (m : MethodSignature) : TypeDatabase :=
  let bound := m.bindParams (db.genericsOf m.declaringType.name)
  { db with methods := db.methods.filter (fun old => !(old.ref = bound.ref)) ++ [bound] }

/-- Registers a way to apply an operator. -/
def registerOperator (db : TypeDatabase) (op : OperatorSignature) : TypeDatabase :=
  { db with operators := db.operators ++ [op] }

/-- Registers everything that another database holds. -/
def merge (db other : TypeDatabase) : TypeDatabase :=
  let types := other.types.values.foldl registerType db
  let methods := other.methods.foldl registerMethod types
  let operators := other.operators.foldl registerOperator methods
  { operators with thisType := other.thisType }

mutual

/-- Whether every part of a type is registered with the right number of arguments. -/
def isKnown (db : TypeDatabase) : TypeExpr → Bool
  | .var _ => false
  | .named name args =>
    (if name = arrayName then args.length = 1
      else (db.typeInfo? name).any fun info => info.genericParameters.length = args.length)
    && db.areKnown args

/-- Whether all types of a list are known. -/
def areKnown (db : TypeDatabase) : List TypeExpr → Bool
  | [] => true
  | t :: rest => db.isKnown t && db.areKnown rest

end

/-- The width of a type of numbers. -/
def rank? (db : TypeDatabase) : TypeExpr → Option UInt8
  | .named name [] => (db.typeInfo? name).bind (·.numericRank)
  | _ => none

/-- The known type that a handle denotes. -/
def resolve (db : TypeDatabase) (handle : TypeHandle) : Option TypeExpr :=
  if handle = .thisType then some (.plain db.thisType)
  else handle.toType?.filter db.isKnown

/-- Whether a type is a type of numbers. -/
def isNumeric (db : TypeDatabase) (t : TypeExpr) : Bool := (db.rank? t).isSome

/-- The registered ways to apply an operator. -/
def registeredOperators (db : TypeDatabase) (op : Operator) (operands : List TypeExpr) :
    List OperatorSignature :=
  db.operators.filter fun s => s.op = op && s.operands = operands

/-- The result of an operator that no one registered: numbers combine to the wider type and compare
to truth values, text is joined to anything, equal types are tested for equality, and truth values
are combined. -/
def builtinResult? (db : TypeDatabase) (op : BinaryOperator) (lhs rhs : TypeExpr) :
    Option TypeExpr :=
  let general :=
    if op = .add && (lhs = .plain "string" || rhs = .plain "string") then some (.plain "string")
    else if op.isEquality && lhs = rhs then some (.plain "bool")
    else if (op = .and || op = .or) && lhs = .plain "bool" && rhs = .plain "bool" then
      some (.plain "bool")
    else none
  match db.rank? lhs, db.rank? rhs with
  | some a, some b =>
    if op.isArithmetic then some (if b ≤ a then lhs else rhs)
    else if op.isOrdering || op.isEquality then some (.plain "bool")
    else general
  | _, _ => general

/-- The ways to apply an operator to two types: the registered ones, or else the built-in one. -/
def binaryOverloads (db : TypeDatabase) (op : BinaryOperator) (lhs rhs : TypeExpr) :
    List OperatorSignature :=
  match db.registeredOperators (.binary op) [lhs, rhs] with
  | [] => ((db.builtinResult? op lhs rhs).map fun t => ⟨.binary op, [lhs, rhs], t⟩).toList
  | found => found

/-- The ways to apply an operator to a type: the registered ones, or else the built-in one. -/
def unaryOverloads (db : TypeDatabase) (op : UnaryOperator) (operand : TypeExpr) :
    List OperatorSignature :=
  match db.registeredOperators (.unary op) [operand] with
  | [] =>
    let applies : Bool := match op with
      | .negate => db.isNumeric operand
      | .not => operand = .plain "bool"
    if applies then [⟨.unary op, [operand], operand⟩] else []
  | found => found

/-- The members of a type: those of its entry, then its methods. -/
def members (db : TypeDatabase) (t : TypeExpr) (filter : MemberFilter) : List Member :=
  match db.typeInfo? t.name with
  | none => []
  | some info =>
    let bindings := info.bindingsFor t
    let declared := (info.members.filter fun m => filter.accepts m.isStatic).map fun m =>
      { m with type := m.type.substitute bindings }
    let methods := db.methods.filter fun m =>
      m.declaringType.name = t.name && filter.accepts m.isStatic
    declared ++ methods.map fun m =>
      ⟨m.name, .method, m.returnType.substitute bindings, m.isStatic⟩

/-- The method of a reference. -/
def method? (db : TypeDatabase) (ref : MethodRef) : Option MethodSignature :=
  db.methods.find? (·.ref = ref)

/-- The types that a type converts to in one step; an array converts to what can be iterated. -/
def supertypes (db : TypeDatabase) (t : TypeExpr) : List TypeExpr :=
  if t.name = arrayName then [.named "IEnumerable" t.args]
  else match db.typeInfo? t.name with
    | none => []
    | some info => info.supertypes.map (·.substitute (info.bindingsFor t))

/-- The value that a registered type has by default. -/
def registeredDefault (db : TypeDatabase) (t : TypeExpr) : Constant :=
  match (db.typeInfo? t.name).map TypeInfo.kind with
  | some (.enumeration (first :: _)) => .enumMember t.name first
  | some .reference | some .interface => .null
  | _ => .defaultOf (.of t)

/-- The value that a type has by default. -/
def defaultValue (db : TypeDatabase) (t : TypeExpr) : Constant :=
  if t.name = "bool" then .bool false
  else if t.name = "float" then .float .zero
  else if t.name = "double" then .double .zero
  else if t.name = "string" then .string ""
  else if db.isNumeric t then .int 0
  else db.registeredDefault t

/-- The answers of the database. -/
def toOracle (db : TypeDatabase) : TypeOracle where
  resolve := db.resolve
  isNumeric := db.isNumeric
  binaryOverloads := db.binaryOverloads
  unaryOverloads := db.unaryOverloads
  members := db.members
  method? := db.method?
  supertypes := db.supertypes
  defaultValue := db.defaultValue

/-- The primitive types, text and objects. -/
def primitives : TypeDatabase :=
  [.plain "void" .primitive, .plain "bool" .primitive, .numeric "int" 2, .numeric "long" 3,
    .numeric "float" 4, .numeric "double" 5, .plain "string" .reference,
    .plain "object" .reference].foldl registerType empty

/-- Types of an engine that scripts use most. -/
def engineTypes : List TypeInfo := [
  (((TypeInfo.plain "Vector3" .struct).withField "x" "float").withField "y" "float").withField
    "z" "float",
  (TypeInfo.plain "Transform" .reference).withProperty "position" "Vector3",
  ((TypeInfo.plain "GameObject" .reference).withProperty "name" "string").withProperty
    "transform" "Transform",
  .plain "KeyCode" (.enumeration ["Space", "Return", "Escape"]),
  (TypeInfo.plain "IEnumerable" .interface).withGenerics ["T"],
  (((TypeInfo.plain "List" .reference).withGenerics ["T"]).withProperty "Count" "int").withSupertype
    "IEnumerable<T>",
  .plain "Debug" .reference, .plain "Mathf" .reference, .plain "Enumerable" .reference,
  .plain "Input" .reference, .plain "EventBus" .reference]

/-- Operators on the engine types. -/
def engineOperators : List OperatorSignature :=
  let vector := TypeExpr.plain "Vector3"
  [⟨.binary .add, [vector, vector], vector⟩, ⟨.binary .subtract, [vector, vector], vector⟩,
    ⟨.binary .multiply, [vector, .plain "float"], vector⟩, ⟨.unary .negate, [vector], vector⟩]

/-- Methods of the engine types. -/
def engineMethods : List MethodSignature :=
  open MethodSignature in [
  (static "Debug" "Log").param "message" "object",
  ((static "Mathf" "Abs").param "value" "float").returns "float",
  (((static "Mathf" "Max").param "a" "float").param "b" "float").returns "float",
  ((((static "Mathf" "Clamp").param "value" "float").param "min" "float").param "max"
    "float").returns "float",
  ((static "Input" "GetKey").param "key" "KeyCode").returns "bool",
  (onInstance "Transform" "Translate").param "translation" "Vector3",
  (onInstance "List<T>" "Add").param "item" "T",
  ((onInstance "List<T>" "Contains").param "item" "T").returns "bool",
  (((static "Enumerable" "First").generic "T").param "source" "IEnumerable<T>").returns "T",
  ((((static "Enumerable" "Repeat").generic "T").param "element" "T").param "count"
    "int").returns "IEnumerable<T>"]

/-- The primitives and the engine types. -/
def standard : TypeDatabase :=
  let types := engineTypes.foldl registerType primitives
  let operators := engineOperators.foldl registerOperator types
  engineMethods.foldl registerMethod operators

end TypeDatabase

end NodeScript
