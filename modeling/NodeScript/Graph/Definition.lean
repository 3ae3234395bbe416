import NodeScript.Graph.Node

/-!
The ports of nodes. Which ports a node has follows from its kind, the types it refers to, and the
result of the function it runs in; kinds of extensions say it themselves.
-/

namespace NodeScript

/-- Where a variable lives. -/
inductive VariableScope where
  | field
  | local (function : NodeId)
  | parameter (function : NodeId)
deriving DecidableEq, Repr, Inhabited

/-- The function that a variable belongs to. -/
def VariableScope.function? : VariableScope → Option NodeId
  | .field => none
  | .local f | .parameter f => some f

/-- A variable of a graph. -/
structure VariableDecl where
  id : VariableId
  name : String
  type : TypeHandle
  scope : VariableScope
  /-- Whether others may see it. -/
  exposed : Bool
  initialValue : Option Constant
deriving DecidableEq, Repr, Inhabited

/-- Why the ports of a node cannot be told. -/
inductive DefinitionError where
  | nodeNotFound (node : NodeId)
  | unknownVariable (id : VariableId)
  | unknownMethod (method : MethodRef)
  | unknownNodeType (typeId : String)
  | duplicatePort (name : String)
deriving DecidableEq, Repr

/-- The wording of the error. -/
def DefinitionError.message : DefinitionError → String
  | .nodeNotFound node => s!"Node not found: {node.shown}"
  | .unknownVariable id => s!"Unknown variable: {id.shown}"
  | .unknownMethod method => s!"Unknown method: {method.text}"
  | .unknownNodeType typeId => s!"Unknown node type: {typeId}"
  | .duplicatePort name => s!"Duplicate port: {name}"

instance : ToString DefinitionError := ⟨DefinitionError.message⟩

/-- A kind of node that an extension defines. -/
structure NodeExtension where
  /-- Whether such nodes stand in stacks. -/
  stackable : Bool
  /-- The ports of a node with a configuration. -/
  ports : OrderedMap String String → TypeOracle → Except DefinitionError (List PortSpec)

/-- What the ports of nodes depend on beside the graph: the types, and the kinds of extensions by
the names of the kinds. -/
structure DefinitionEnv where
  oracle : TypeOracle
  extensions : OrderedMap String NodeExtension

/-- The ports of a call: the object unless the method is static, the parameters, and the result
unless it is void, all with the type arguments that are known. -/
def callPorts (m : MethodSignature) (typeArguments : OrderedMap String TypeHandle) :
    List PortSpec :=
  let bindings : Bindings := .ofList (typeArguments.entries.filterMap fun (name, handle) =>
    handle.toType?.map fun t => (name, t))
  let handle (t : TypeExpr) : TypeHandle := .of (t.substitute bindings)
  (if m.isStatic then [] else [.instanceInput "Instance" (handle m.declaringType)])
    ++ m.parameters.map (fun p => .dataInput p.name (handle p.type))
    ++ (if m.returnType.isVoid then [] else [.dataOutput "Result" (handle m.returnType)])

/-- The name of the output for a case. -/
def caseOutput (label : Int64) : String := "Case " ++ intText label.toInt

/-- The first port with the direction and name of an earlier one. -/
def duplicatePort? (seen : List (PortDirection × String)) : List PortSpec → Option PortSpec
  | [] => none
  | p :: rest =>
    if seen.contains (p.direction, p.name) then some p
    else duplicatePort? ((p.direction, p.name) :: seen) rest

/-- The ports of a node of a kind, whatever their names. -/
def NodeKind.declaredPorts (kind : NodeKind) (env : DefinitionEnv)
    (vars : OrderedMap VariableId VariableDecl) (returnType : Option TypeHandle) :
    Except DefinitionError (List PortSpec) :=
  match kind with
  | .stack => .ok [.execInput "In", .execOutput "Out"]
  | .loopStack => .ok [.execInput "In"]
  | .function _ => .ok [.execOutput "Out"]
  | .constant value => .ok [.dataOutput "Value" value.type]
  | .getVariable id =>
    match vars.get? id with
    | some v => .ok [.dataOutput "Value" v.type]
    | none => .error (.unknownVariable id)
  | .setVariable id =>
    match vars.get? id with
    | some v => .ok [.dataInput "Value" v.type]
    | none => .error (.unknownVariable id)
  | .binary _ =>
    .ok [.dataInput "A" .unknown, .dataInput "B" .unknown, .dataOutput "Result" .unknown]
  | .unary _ => .ok [.dataInput "Value" .unknown, .dataOutput "Result" .unknown]
  | .call decl =>
    match env.oracle.method? decl.method with
    | some m => .ok (callPorts m decl.typeArguments)
    | none => .error (.unknownMethod decl.method)
  | .this => .ok [.instanceOutput "Self" .thisType]
  | .branch => .ok [.dataInput "Condition" .bool, .execOutput "Then", .execOutput "Else"]
  | .select cases =>
    .ok (.dataInput "Value" .int :: cases.map (fun c => .execOutput (caseOutput c))
      ++ [.execOutput "Default"])
  | .repeated => .ok [.dataInput "Condition" .bool, .execOutput "Body"]
  | .forEach =>
    .ok [.dataInput "Collection" .unknown, .execOutput "Body", .dataOutput "Item" .unknown]
  | .leave =>
    match returnType with
    | some t => .ok (if t = .void then [] else [.dataInput "Value" t])
    | none => .ok []
  | .custom typeId config =>
    match env.extensions.get? typeId with
    | some extension => extension.ports config env.oracle
    | none => .error (.unknownNodeType typeId)

/-- The ports of a node of a kind, no two of which share direction and name. -/
def NodeKind.definePorts (kind : NodeKind) (env : DefinitionEnv)
    (vars : OrderedMap VariableId VariableDecl) (returnType : Option TypeHandle) :
    Except DefinitionError (List PortSpec) :=
  match kind.declaredPorts env vars returnType with
  | .error e => .error e
  | .ok specs =>
    match duplicatePort? [] specs with
    | some p => .error (.duplicatePort p.name)
    | none => .ok specs

end NodeScript
