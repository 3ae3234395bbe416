import NodeScript.Document.Tree
import NodeScript.Document.Reader
import NodeScript.Typing.TypeDatabase

/-!
Types, constants and type databases in stored documents. A type is stored as its text, so that its
variables come back as bare names and are bound again when the type is registered.
-/

namespace NodeScript

/-- A type handle. -/
def TypeHandle.encode (h : TypeHandle) : Tree := encodeWrapped "TypeHandle" (.text h.text)

/-- Reads a type handle. -/
def TypeHandle.reader : Reader TypeHandle := .map TypeHandle.mk (.wrapped "TypeHandle" .text)

/-- A type. -/
def TypeExpr.encode (t : TypeExpr) : Tree := .text t.text

/-- Reads a type. -/
def TypeExpr.reader : Reader TypeExpr :=
  .refine (fun text => (TypeExpr.parse text).mapError (·.message)) .text

/-- A constant. -/
def Constant.encode : Constant → Tree
  | .bool value => encodeVariant "Bool" (encodeBool value)
  | .int value => encodeVariant "Int" (encodeInteger value.toInt)
  | .float value => encodeVariant "Float" (encodeReading value.read)
  | .double value => encodeVariant "Double" (encodeReading value.read)
  | .string value => encodeVariant "String" (.text value)
  | .enumMember typeName member =>
    encodeRecord "Enum" [("type_name", .text typeName), ("value", .text member)]
  | .null => .word "Null"
  | .defaultOf handle => encodeVariant "Default" handle.encode

/-- Reads a constant. -/
def Constant.reader : Reader Constant := .variant "ConstantValue" [
  ("Bool", .value (.map .bool .bool)),
  ("Int", .value (.map (fun n => .int (Int64.ofInt n)) (.integer .i64))),
  ("Float", .value (.map .float .single)),
  ("Double", .value (.map .double .double)),
  ("String", .value (.map .string .text)),
  ("Enum", .fields (.map (fun (typeName, member) => .enumMember typeName member)
    (.fields [
      .required "type_name" .text fun typeName e => (typeName, e.2),
      .required "value" .text fun member e => (e.1, member)] ("", "")))),
  ("Null", .nothing .null),
  ("Default", .value (.map .defaultOf TypeHandle.reader))]

/-- The text of a constant without any blanks and without the names of what only wraps text. -/
def Constant.compactText : Constant → String
  | .defaultOf handle => (encodeVariant "Default" (.tuple none [.text handle.text])).compact
  | value => value.encode.compact

/-- All that a member may be. -/
def MemberKind.all : List MemberKind := [.field, .property, .method]

/-- The name of what a member is. -/
def MemberKind.name : MemberKind → String
  | .field => "Field"
  | .property => "Property"
  | .method => "Method"

/-- What a member of this name is. -/
def MemberKind.ofName? (text : String) : Option MemberKind := all.find? (·.name = text)

/-- What a member is. -/
def MemberKind.encode (kind : MemberKind) : Tree := .word kind.name

/-- Reads what a member is. -/
def MemberKind.reader : Reader MemberKind :=
  .plainVariant "MemberKind" MemberKind.all MemberKind.name

/-- A member. -/
def Member.encode (m : Member) : Tree :=
  encodeRecord "Member" [("name", .text m.name), ("kind", m.kind.encode), ("ty", m.type.encode),
    ("is_static", encodeBool m.isStatic)]

/-- Reads a member. -/
def Member.reader : Reader Member :=
  .record "Member" { name := "", kind := .field, type := default, isStatic := false } [
    .required "name" .text fun v m => { m with name := v },
    .required "kind" MemberKind.reader fun v m => { m with kind := v },
    .required "ty" TypeExpr.reader fun v m => { m with type := v },
    .optional "is_static" .bool fun v m => { m with isStatic := v }]

/-- What a type is. -/
def TypeKind.encode : TypeKind → Tree
  | .primitive => .word "Primitive"
  | .struct => .word "Struct"
  | .reference => .word "Class"
  | .interface => .word "Interface"
  | .enumeration values => encodeRecord "Enum" [("values", encodeList .text values)]

/-- Reads what a type is. -/
def TypeKind.reader : Reader TypeKind := .variant "TypeKind" [
  ("Primitive", .nothing .primitive),
  ("Struct", .nothing .struct),
  ("Class", .nothing .reference),
  ("Interface", .nothing .interface),
  ("Enum",
    .fields (.map .enumeration (.fields [.required "values" (.list .text) fun v _ => v] [])))]

/-- A registered type. -/
def TypeInfo.encode (info : TypeInfo) : Tree :=
  encodeRecord "TypeInfo" [("name", .text info.name), ("kind", info.kind.encode),
    ("generic_parameters", encodeList .text info.genericParameters),
    ("numeric_rank", encodeOption (fun r => encodeInteger r.toNat) info.numericRank),
    ("members", encodeList Member.encode info.members),
    ("supertypes", encodeList TypeExpr.encode info.supertypes)]

/-- Reads a width of numbers. -/
def rankReader : Reader UInt8 := .map (fun n => UInt8.ofNat n.toNat) (.integer .u8)

/-- Reads a registered type. -/
def TypeInfo.reader : Reader TypeInfo :=
  .record "TypeInfo"
    { name := "", kind := .primitive, genericParameters := [], numericRank := none, members := []
      supertypes := [] } [
    .required "name" .text fun v t => { t with name := v },
    .required "kind" TypeKind.reader fun v t => { t with kind := v },
    .optional "generic_parameters" (.list .text) fun v t => { t with genericParameters := v },
    .optional "numeric_rank" (.option rankReader) fun v t => { t with numericRank := v },
    .optional "members" (.list Member.reader) fun v t => { t with members := v },
    .optional "supertypes" (.list TypeExpr.reader) fun v t => { t with supertypes := v }]

/-- A parameter. -/
def Parameter.encode (p : Parameter) : Tree :=
  encodeRecord "ParameterInfo" [("name", .text p.name), ("ty", p.type.encode)]

/-- Reads a parameter. -/
def Parameter.reader : Reader Parameter :=
  .record "ParameterInfo" { name := "", type := default } [
    .required "name" .text fun v p => { p with name := v },
    .required "ty" TypeExpr.reader fun v p => { p with type := v }]

/-- A method. -/
def MethodSignature.encode (m : MethodSignature) : Tree :=
  encodeRecord "MethodSignature" [("declaring_type", m.declaringType.encode),
    ("name", .text m.name), ("is_static", encodeBool m.isStatic),
    ("generic_parameters", encodeList .text m.genericParameters),
    ("parameters", encodeList Parameter.encode m.parameters),
    ("return_type", m.returnType.encode)]

/-- Reads a method. -/
def MethodSignature.reader : Reader MethodSignature :=
  .record "MethodSignature"
    { declaringType := default, name := "", isStatic := false, genericParameters := []
      parameters := [], returnType := default } [
    .required "declaring_type" TypeExpr.reader fun v m => { m with declaringType := v },
    .required "name" .text fun v m => { m with name := v },
    .optional "is_static" .bool fun v m => { m with isStatic := v },
    .optional "generic_parameters" (.list .text) fun v m => { m with genericParameters := v },
    .optional "parameters" (.list Parameter.reader) fun v m => { m with parameters := v },
    .required "return_type" TypeExpr.reader fun v m => { m with returnType := v }]

/-- An operator. -/
def Operator.encode : Operator → Tree
  | .binary op => encodeVariant "Binary" (.word op.name)
  | .unary op => encodeVariant "Unary" (.word op.name)

/-- Reads an operator with two operands. -/
def BinaryOperator.reader : Reader BinaryOperator :=
  .plainVariant "BinaryOperatorKind" BinaryOperator.all BinaryOperator.name

/-- Reads an operator with one operand. -/
def UnaryOperator.reader : Reader UnaryOperator :=
  .plainVariant "UnaryOperatorKind" UnaryOperator.all UnaryOperator.name

/-- Reads an operator. -/
def Operator.reader : Reader Operator := .variant "OperatorKind" [
  ("Binary", .value (.map .binary BinaryOperator.reader)),
  ("Unary", .value (.map .unary UnaryOperator.reader))]

/-- A way to apply an operator. -/
def OperatorSignature.encode (s : OperatorSignature) : Tree :=
  encodeRecord "OperatorSignature" [("kind", s.op.encode),
    ("operands", encodeList TypeExpr.encode s.operands), ("result", s.result.encode)]

/-- Reads a way to apply an operator. -/
def OperatorSignature.reader : Reader OperatorSignature :=
  .record "OperatorSignature" { op := .unary .not, operands := [], result := default } [
    .required "kind" Operator.reader fun v s => { s with op := v },
    .required "operands" (.list TypeExpr.reader) fun v s => { s with operands := v },
    .required "result" TypeExpr.reader fun v s => { s with result := v }]

namespace TypeDatabase

/-- A database. -/
def encode (db : TypeDatabase) : Tree :=
  encodeRecord "TypeDatabase" [("types", encodeTable .text TypeInfo.encode db.types),
    ("methods", encodeList MethodSignature.encode db.methods),
    ("operators", encodeList OperatorSignature.encode db.operators),
    ("this_type", .text db.thisType)]

/-- Reads a database as it is stored, without registering anything. -/
def reader : Reader TypeDatabase :=
  .record "TypeDatabase" empty [
    .optional "types" (.table .text TypeInfo.reader) fun v db => { db with types := v },
    .optional "methods" (.list MethodSignature.reader) fun v db => { db with methods := v },
    .optional "operators" (.list OperatorSignature.reader) fun v db => { db with operators := v },
    .optional "this_type" .text fun v db => { db with thisType := v }]

/-- The text of a database. -/
def toDocument (db : TypeDatabase) : String := db.encode.pretty

/-- Reads a database and registers what it holds on top of the primitives. -/
def ofDocument (text : String) : Except ReadError TypeDatabase :=
  (readDocument reader text).map primitives.merge

end TypeDatabase

end NodeScript
