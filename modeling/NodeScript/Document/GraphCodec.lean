import NodeScript.Document.TypeCodec
import NodeScript.Graph.Basic

/-!
Graphs in stored documents. Every part is a record with the name of what it is; identities are
stored as hyphenated text.
-/

namespace NodeScript

/-- An identity. -/
def Uuid.encode (u : Uuid) : Tree := .text u.text

/-- Reads an identity. -/
def Uuid.reader : Reader Uuid := .refine (fun text =>
  match Uuid.ofText? text with
  | some u => .ok u
  | none => .error s!"UUID parsing failed: {(Uuid.fault text).message}") .text

/-- The identity of a node. -/
def NodeId.encode (id : NodeId) : Tree := encodeWrapped "NodeId" id.uuid.encode

/-- The identity of a port. -/
def PortId.encode (id : PortId) : Tree := encodeWrapped "PortId" id.uuid.encode

/-- The identity of an edge. -/
def EdgeId.encode (id : EdgeId) : Tree := encodeWrapped "EdgeId" id.uuid.encode

/-- The identity of a variable. -/
def VariableId.encode (id : VariableId) : Tree := encodeWrapped "VariableId" id.uuid.encode

/-- Reads the identity of a node. -/
def NodeId.reader : Reader NodeId := .map NodeId.mk (.wrapped "NodeId" Uuid.reader)

/-- Reads the identity of a port. -/
def PortId.reader : Reader PortId := .map PortId.mk (.wrapped "PortId" Uuid.reader)

/-- Reads the identity of an edge. -/
def EdgeId.reader : Reader EdgeId := .map EdgeId.mk (.wrapped "EdgeId" Uuid.reader)

/-- Reads the identity of a variable. -/
def VariableId.reader : Reader VariableId := .map VariableId.mk (.wrapped "VariableId" Uuid.reader)

/-- An event. -/
def EventKind.encode : EventKind → Tree
  | .start => .word "Start"
  | .update => .word "Update"
  | .fixedUpdate => .word "FixedUpdate"
  | .custom name => encodeVariant "Custom" (.text name)

/-- Reads an event. -/
def EventKind.reader : Reader EventKind := .variant "EventKind" [
  ("Start", .nothing .start),
  ("Update", .nothing .update),
  ("FixedUpdate", .nothing .fixedUpdate),
  ("Custom", .value (.map .custom .text))]

/-- A function. -/
def FunctionDecl.encode (f : FunctionDecl) : Tree :=
  encodeRecord "FunctionDecl" [("name", .text f.name), ("return_type", f.returnType.encode),
    ("event", encodeOption EventKind.encode f.event)]

/-- Reads a function. -/
def FunctionDecl.reader : Reader FunctionDecl :=
  .record "FunctionDecl" { name := "", returnType := default, event := none } [
    .required "name" .text fun v f => { f with name := v },
    .required "return_type" TypeHandle.reader fun v f => { f with returnType := v },
    .optional "event" (.option EventKind.reader) fun v f => { f with event := v }]

/-- The name of a method with that of its type. -/
def MethodRef.encode (m : MethodRef) : Tree :=
  encodeRecord "MethodRef" [("declaring_type", .text m.declaringType), ("name", .text m.name)]

/-- Reads the name of a method with that of its type. -/
def MethodRef.reader : Reader MethodRef :=
  .record "MethodRef" { declaringType := "", name := "" } [
    .required "declaring_type" .text fun v m => { m with declaringType := v },
    .required "name" .text fun v m => { m with name := v }]

/-- A call. -/
def CallDecl.encode (c : CallDecl) : Tree :=
  encodeRecord "FunctionCallDecl" [("method", c.method.encode),
    ("type_arguments", encodeTable .text TypeHandle.encode c.typeArguments)]

/-- Reads a call. -/
def CallDecl.reader : Reader CallDecl :=
  .record "FunctionCallDecl" { method := default, typeArguments := ∅ } [
    .required "method" MethodRef.reader fun v d => { d with method := v },
    .optional "type_arguments" (.table .text TypeHandle.reader)
      fun v d => { d with typeArguments := v }]

/-- What a node does. -/
def NodeKind.encode : NodeKind → Tree
  | .stack => .word "Stack"
  | .loopStack => .word "LoopStack"
  | .function decl => encodeVariant "Function" decl.encode
  | .constant value => encodeVariant "Constant" value.encode
  | .getVariable id => encodeVariant "GetVariable" id.encode
  | .setVariable id => encodeVariant "SetVariable" id.encode
  | .binary op => encodeVariant "BinaryOperator" (.word op.name)
  | .unary op => encodeVariant "UnaryOperator" (.word op.name)
  | .call decl => encodeVariant "FunctionCall" decl.encode
  | .this => .word "This"
  | .branch => .word "If"
  | .select cases =>
    encodeRecord "Switch" [("cases", encodeList (fun n => encodeInteger (Int64.toInt n)) cases)]
  | .repeated => .word "While"
  | .forEach => .word "ForEach"
  | .leave => .word "Return"
  | .custom typeId config =>
    encodeRecord "Custom" [("type_id", .text typeId), ("config", encodeTable .text .text config)]

/-- Reads the label of a case. -/
def labelReader : Reader Int64 := .map Int64.ofInt (.integer .i64)

/-- Reads what a node does. -/
def NodeKind.reader : Reader NodeKind := .variant "NodeKind" [
  ("Stack", .nothing .stack),
  ("LoopStack", .nothing .loopStack),
  ("Function", .value (.map .function FunctionDecl.reader)),
  ("Constant", .value (.map .constant Constant.reader)),
  ("GetVariable", .value (.map .getVariable VariableId.reader)),
  ("SetVariable", .value (.map .setVariable VariableId.reader)),
  ("BinaryOperator", .value (.map .binary BinaryOperator.reader)),
  ("UnaryOperator", .value (.map .unary UnaryOperator.reader)),
  ("FunctionCall", .value (.map .call CallDecl.reader)),
  ("This", .nothing .this),
  ("If", .nothing .branch),
  ("Switch",
    .fields (.map .select (.fields [.required "cases" (.list labelReader) fun v _ => v] []))),
  ("While", .nothing .repeated),
  ("ForEach", .nothing .forEach),
  ("Return", .nothing .leave),
  ("Custom", .fields (.map (fun (typeId, config) => .custom typeId config)
    (.fields [
      .required "type_id" .text fun typeId k => (typeId, k.2),
      .optional "config" (.table .text .text) fun config k => (k.1, config)] ("", ∅))))]

/-- Both ways a port may face. -/
def PortDirection.all : List PortDirection := [.input, .output]

/-- The name of a direction. -/
def PortDirection.name : PortDirection → String
  | .input => "Input"
  | .output => "Output"

/-- Which way a port faces. -/
def PortDirection.encode (direction : PortDirection) : Tree := .word direction.name

/-- Reads which way a port faces. -/
def PortDirection.reader : Reader PortDirection :=
  .plainVariant "PortDirection" PortDirection.all PortDirection.name

/-- All that may go through a port. -/
def PortKind.all : List PortKind := [.data, .execution, .receiver]

/-- The name of what goes through a port. -/
def PortKind.name : PortKind → String
  | .data => "Data"
  | .execution => "Execution"
  | .receiver => "Instance"

/-- What goes through ports of a kind of this name. -/
def PortKind.ofName? (text : String) : Option PortKind := all.find? (·.name = text)

/-- What goes through a port. -/
def PortKind.encode (kind : PortKind) : Tree := .word kind.name

/-- Reads what goes through a port. -/
def PortKind.reader : Reader PortKind := .plainVariant "PortKind" PortKind.all PortKind.name

/-- A port. -/
def Port.encode (p : Port) : Tree :=
  encodeRecord "Port" [("id", p.id.encode), ("node", p.node.encode), ("name", .text p.name),
    ("direction", p.direction.encode), ("kind", p.kind.encode), ("data_type", p.type.encode)]

/-- Reads a port. -/
def Port.reader : Reader Port :=
  .record "Port" default [
    .required "id" PortId.reader fun v p => { p with id := v },
    .required "node" NodeId.reader fun v p => { p with node := v },
    .required "name" .text fun v p => { p with name := v },
    .required "direction" PortDirection.reader fun v p => { p with direction := v },
    .required "kind" PortKind.reader fun v p => { p with kind := v },
    .required "data_type" TypeHandle.reader fun v p => { p with type := v }]

/-- A place on the canvas. -/
def Position.encode (p : Position) : Tree :=
  .tuple none [encodeReading p.x.read, encodeReading p.y.read]

/-- Reads a place on the canvas. -/
def Position.reader : Reader Position :=
  .map (fun (x, y) => ⟨x, y⟩) (.pair "a tuple of size 2" .single .single)

/-- A color. -/
def Color.encode (c : Color) : Tree :=
  .tuple none [encodeInteger c.red.toNat, encodeInteger c.green.toNat, encodeInteger c.blue.toNat]

/-- Reads a color. -/
def Color.reader : Reader Color :=
  .map (fun (red, green, blue) => ⟨red, green, blue⟩)
    (.triple "an array of length 3" rankReader rankReader rankReader)

/-- A node. -/
def Node.encode (n : Node) : Tree :=
  encodeRecord "Node" [("id", n.id.encode), ("kind", n.kind.encode), ("title", .text n.title),
    ("position", n.position.encode), ("color", encodeOption Color.encode n.color),
    ("locked", encodeBool n.locked), ("collapsed", encodeBool n.collapsed),
    ("parent", encodeOption NodeId.encode n.parent),
    ("children", encodeList NodeId.encode n.children),
    ("inputs", encodeList Port.encode n.inputs), ("outputs", encodeList Port.encode n.outputs),
    ("embedded_constants", encodeTable PortId.encode Constant.encode n.constants),
    ("defined", encodeBool n.defined)]

/-- Reads a node. -/
def Node.reader : Reader Node :=
  .record "Node"
    { id := default, kind := .stack, title := "", position := default, color := none
      locked := false, collapsed := false, parent := none, children := [], inputs := []
      outputs := [], constants := ∅, defined := false } [
    .required "id" NodeId.reader fun v n => { n with id := v },
    .required "kind" NodeKind.reader fun v n => { n with kind := v },
    .required "title" .text fun v n => { n with title := v },
    .required "position" Position.reader fun v n => { n with position := v },
    .optional "color" (.option Color.reader) fun v n => { n with color := v },
    .required "locked" .bool fun v n => { n with locked := v },
    .required "collapsed" .bool fun v n => { n with collapsed := v },
    .optional "parent" (.option NodeId.reader) fun v n => { n with parent := v },
    .required "children" (.list NodeId.reader) fun v n => { n with children := v },
    .required "inputs" (.list Port.reader) fun v n => { n with inputs := v },
    .required "outputs" (.list Port.reader) fun v n => { n with outputs := v },
    .required "embedded_constants" (.table PortId.reader Constant.reader)
      fun v n => { n with constants := v },
    .required "defined" .bool fun v n => { n with defined := v }]

/-- An end of an edge. -/
def PortRef.encode (p : PortRef) : Tree :=
  encodeRecord "PortRef" [("node", p.node.encode), ("port", p.port.encode)]

/-- Reads an end of an edge. -/
def PortRef.reader : Reader PortRef :=
  .record "PortRef" default [
    .required "node" NodeId.reader fun v p => { p with node := v },
    .required "port" PortId.reader fun v p => { p with port := v }]

/-- An edge. -/
def Edge.encode (e : Edge) : Tree :=
  encodeRecord "Edge" [("id", e.id.encode), ("output", e.output.encode), ("input", e.input.encode)]

/-- Reads an edge. -/
def Edge.reader : Reader Edge :=
  .record "Edge" default [
    .required "id" EdgeId.reader fun v e => { e with id := v },
    .required "output" PortRef.reader fun v e => { e with output := v },
    .required "input" PortRef.reader fun v e => { e with input := v }]

/-- Where a variable lives. -/
def VariableScope.encode : VariableScope → Tree
  | .field => .word "Field"
  | .local function => encodeVariant "Local" function.encode
  | .parameter function => encodeVariant "Parameter" function.encode

/-- Reads where a variable lives. -/
def VariableScope.reader : Reader VariableScope := .variant "VariableScope" [
  ("Field", .nothing .field),
  ("Local", .value (.map .local NodeId.reader)),
  ("Parameter", .value (.map .parameter NodeId.reader))]

/-- A variable. -/
def VariableDecl.encode (v : VariableDecl) : Tree :=
  encodeRecord "VariableDeclaration" [("id", v.id.encode), ("name", .text v.name),
    ("data_type", v.type.encode), ("scope", v.scope.encode), ("exposed", encodeBool v.exposed),
    ("initial_value", encodeOption Constant.encode v.initialValue)]

/-- Reads a variable. -/
def VariableDecl.reader : Reader VariableDecl :=
  .record "VariableDeclaration"
    { id := default, name := "", type := default, scope := .field, exposed := false
      initialValue := none } [
    .required "id" VariableId.reader fun v d => { d with id := v },
    .required "name" .text fun v d => { d with name := v },
    .required "data_type" TypeHandle.reader fun v d => { d with type := v },
    .required "scope" VariableScope.reader fun v d => { d with scope := v },
    .required "exposed" .bool fun v d => { d with exposed := v },
    .optional "initial_value" (.option Constant.reader) fun v d => { d with initialValue := v }]

/-- A stencil. -/
def Stencil.encode (s : Stencil) : Tree :=
  encodeRecord "Stencil" [("base_class", .text s.baseClass), ("usings", encodeList .text s.usings),
    ("allowed_node_types",
      encodeOption (fun (allowed : OrderedSet String) => encodeList .text allowed.keys) s.allowed)]

/-- Reads a stencil. -/
def Stencil.reader : Reader Stencil :=
  .record "Stencil" { baseClass := "", usings := [], allowed := none } [
    .required "base_class" .text fun v s => { s with baseClass := v },
    .required "usings" (.list .text) fun v s => { s with usings := v },
    .optional "allowed_node_types" (.option (.map OrderedSet.ofMembers (.list .text)))
      fun v s => { s with allowed := v }]

/-- A graph. -/
def Graph.encode (g : Graph) : Tree :=
  encodeRecord "Graph" [("name", .text g.name), ("stencil", g.stencil.encode),
    ("nodes", encodeTable NodeId.encode Node.encode g.nodes),
    ("edges", encodeTable EdgeId.encode Edge.encode g.edges),
    ("variables", encodeTable VariableId.encode VariableDecl.encode g.vars)]

/-- Reads a graph. Nothing is checked beyond the form: links may lead nowhere. -/
def Graph.reader : Reader Graph :=
  .record "Graph" (Graph.empty "") [
    .required "name" .text fun v g => { g with name := v },
    .optional "stencil" Stencil.reader fun v g => { g with stencil := v },
    .required "nodes" (.table NodeId.reader Node.reader) fun v g => { g with nodes := v },
    .required "edges" (.table EdgeId.reader Edge.reader) fun v g => { g with edges := v },
    .optional "variables" (.table VariableId.reader VariableDecl.reader)
      fun v g => { g with vars := v }]

end NodeScript
