import NodeScript.Assets.AssetStore
import NodeScript.Code.Expr
import NodeScript.Document.TypeCodec
import NodeScript.Graph.Basic
import NodeScript.Report.Basic
import NodeScript.Typing.Solving
import NodeScript.Typing.TypeDatabase

/-!
Reports of constants, types and methods. The names of type variables are marked in them, so that a
variable and a type of the same name are told apart.

Reports of graphs and their elements.
-/

namespace NodeScript

/-! ### Types and methods -/

instance : Reported TypeExpr := ⟨fun t => .text t.structure⟩

instance : Reported TypeHandle := ⟨fun h => .text h.text⟩

/-- What is known about a type in which some names are those of variables. -/
def TypeExpr.profile (t : TypeExpr) (vars : List String) : JsonValue :=
  let bound := t.bindParams vars
  .object [("parsed", t), ("text", t.text), ("name", t.name), ("args", t.args), ("void", t.isVoid),
    ("bound", bound), ("bound_text", bound.text), ("open", bound.isOpen), ("params", bound.vars),
    ("serde", decide ((TypeExpr.parse t.text).toOption = some t))]

/-- What is known about a handle. -/
def TypeHandle.profile (h : TypeHandle) : JsonValue :=
  .object [("id", h), ("text", h),
    ("flags", [decide (h = .unknown), h = .execution, h = .thisType, h = .void]),
    ("type", h.toType?), ("round", h.toType?.map TypeHandle.of)]

instance : Reported Constant where
  report
    | .bool v => .object [("b", v)]
    | .int v => .object [("i", v)]
    | .float v => .object [("f", v)]
    | .double v => .object [("d", v)]
    | .string v => .object [("s", v)]
    | .enumMember type member => .object [("enum", [type, member])]
    | .null => .text "null"
    | .defaultOf type => .object [("default", type)]

/-- What is known about an operator with two operands. -/
def BinaryOperator.profile (op : BinaryOperator) : JsonValue :=
  .object [("token", op.token), ("arithmetic", op.isArithmetic), ("ordering", op.isOrdering),
    ("display", op.title), ("index", all.findIdx? fun other => other = op)]

/-- What is known about an operator with one operand. -/
def UnaryOperator.profile (op : UnaryOperator) : JsonValue :=
  .object [("token", op.token), ("title", op.name)]

/-- What is known about an operator. -/
def Operator.profile : Operator → JsonValue
  | .binary op => op.profile
  | .unary op => op.profile

instance : Reported Operator := ⟨fun op => .text op.name⟩

/-- The name of a kind of members. -/
def MemberKind.title : MemberKind → String
  | .field => "Field"
  | .property => "Property"
  | .method => "Method"

instance : Reported Member := ⟨fun m => .array [m.name, m.kind.title, m.type, m.isStatic]⟩

instance : Reported TypeKind where
  report
    | .primitive => .text "Primitive"
    | .struct => .text "Struct"
    | .reference => .text "Class"
    | .interface => .text "Interface"
    | .enumeration values => .object [("Enum", values)]

instance : Reported TypeInfo where
  report info := .object [("name", info.name), ("kind", info.kind),
    ("generics", info.genericParameters), ("rank", info.numericRank), ("members", info.members),
    ("super", info.supertypes)]

instance : Reported Parameter := ⟨fun p => .array [p.name, p.type]⟩

instance : Reported MethodSignature where
  report m := .object [("type", m.declaringType), ("name", m.name), ("static", m.isStatic),
    ("generics", m.genericParameters), ("params", m.parameters), ("ret", m.returnType),
    ("ref", m.ref.text), ("inputs", m.inputTypes), ("vars", m.typeVariables),
    ("generic", m.isGeneric)]

instance : Reported Solution where
  report s := .object [("bindings", s.bindings), ("handles", s.handles)]

instance : Reported OperatorSignature where
  report s := .object [("op", s.op), ("operands", s.operands), ("result", s.result)]

/-! ### Graphs -/

instance : Reported EventKind where
  report
    | .start => .text "Start"
    | .update => .text "Update"
    | .fixedUpdate => .text "FixedUpdate"
    | .custom name => .object [("Custom", name)]

instance : Reported FunctionDecl where
  report f := .object [("name", f.name), ("ret", f.returnType), ("event", f.event)]

instance : Reported CallDecl where
  report c := .array [c.method.declaringType, c.method.name, c.typeArguments]

instance : Reported NodeKind where
  report
    | .stack => .text "Stack"
    | .loopStack => .text "LoopStack"
    | .function decl => .object [("Function", decl)]
    | .constant value => .object [("Constant", value)]
    | .getVariable id => .object [("Get", id)]
    | .setVariable id => .object [("Set", id)]
    | .binary op => .object [("Binary", op.name)]
    | .unary op => .object [("Unary", op.name)]
    | .call decl => .object [("Call", decl)]
    | .this => .text "This"
    | .branch => .text "If"
    | .select cases => .object [("Switch", cases)]
    | .repeated => .text "While"
    | .forEach => .text "ForEach"
    | .leave => .text "Return"
    | .custom typeId config => .object [("Custom", .array [typeId, config])]

instance : Reported NodeCapabilities where
  report c := .array [c.deletable, c.copiable, c.renamable, c.collapsible]

/-- What is known about a kind of nodes. -/
def NodeKind.profile (kind : NodeKind) : JsonValue :=
  let common : JsonValue := .object [("kind", kind), ("type_id", kind.typeId),
    ("title", kind.defaultTitle),
    ("is", .object [("stack", kind.isStack), ("branching", kind.isBranching),
      ("loop", kind.isLoop), ("stackable", kind.isStackable)]),
    ("caps", kind.capabilities)]
  match kind with
  | .function decl => common.with [("method_name", decl.methodName),
      ("registers", decl.event.map fun event => event.needsRegistration)]
  | _ => common

/-- What is known about a constant. -/
def Constant.profile (c : Constant) : JsonValue :=
  .object [("value", c), ("type", c.type), ("literal", c.expr.text), ("debug", c.label),
    ("ron", c.compactText), ("title", (NodeKind.constant c).defaultTitle)]

/-- The name of a kind of ports. -/
def PortKind.title : PortKind → String
  | .data => "Data"
  | .execution => "Execution"
  | .receiver => "Instance"

instance : Reported Port := ⟨fun p => .array [p.id, p.name, p.kind.title, p.type]⟩

/-- What is known about two ports, from the one to the other and back. -/
def Port.pairProfile (a b : Port) : JsonValue :=
  .object [("can_connect", [a.canConnect b, b.canConnect a]),
    ("multiple", [a.acceptsMultiple, b.acceptsMultiple]),
    ("carries", [a.kind.carriesValue, b.kind.carriesValue]), ("types", [a.type, b.type])]

instance : Reported Position := ⟨fun p => .array [p.x, p.y]⟩

instance : Reported Color := ⟨fun c => .array [c.red, c.green, c.blue]⟩

instance : Reported Node where
  report n := .object [("id", n.id), ("kind", n.kind), ("title", n.title), ("pos", n.position),
    ("color", n.color), ("locked", n.locked), ("collapsed", n.collapsed), ("parent", n.parent),
    ("children", n.children), ("in", n.inputs), ("out", n.outputs), ("const", n.constants),
    ("defined", n.defined)]

/-- A node with what follows from its kind and its ports. -/
def Node.profile (n : Node) : JsonValue :=
  .object [("node", n), ("stacked", n.isStacked),
    ("exec_outputs", n.execOutputs.map fun p => p.name),
    ("data_inputs", n.dataInputs.map fun p => p.name), ("caps", n.capabilities)]

instance : Reported Edge where
  report e := .array [e.id, e.output.node, e.output.port, e.input.node, e.input.port]

instance : Reported VariableScope where
  report
    | .field => .text "Field"
    | .local function => .object [("Local", function)]
    | .parameter function => .object [("Parameter", function)]

instance : Reported VariableDecl where
  report v := .object [("id", v.id), ("name", v.name), ("type", v.type), ("scope", v.scope),
    ("exposed", v.exposed), ("init", v.initialValue)]

instance : Reported Stencil where
  report s := .object [("base", s.baseClass), ("usings", s.usings),
    ("allow", s.allowed.map fun kinds => kinds.keys)]

instance : Reported Graph where
  report g := .object [("name", g.name), ("stencil", g.stencil), ("nodes", g.nodes.values),
    ("edges", g.edges.values), ("vars", g.vars.values)]

instance : Reported NodeSummary := ⟨fun n => .array [n.id, n.typeId, n.children]⟩

/-- A graph at a glance, with names for its nodes, by which connections are ordered. -/
def GraphSummary.profile (s : GraphSummary) (name : NodeId → String) : JsonValue :=
  let ends := s.connections.map fun c => [name c.source, c.output, name c.target, c.input]
  let connections := ends.mergeSort fun a b => !b.lex a fun s t => decide (s < t)
  .object [("name", s.name), ("nodes", s.nodes), ("connections", connections),
    ("counts", [s.nodes.length, connections.length, s.variableCount])]

end NodeScript
