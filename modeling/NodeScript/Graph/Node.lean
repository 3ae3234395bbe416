import NodeScript.Graph.Port
import NodeScript.OrderedMap
import NodeScript.Typing.Signature

/-!
Nodes: what they do, how they look, and their ports.
-/

namespace NodeScript

/-- An event that starts a function. -/
inductive EventKind where
  | start | update | fixedUpdate
  /-- An event by its name on the event bus. -/
  | custom (name : String)
deriving DecidableEq, Repr, Inhabited

/-- The name of the method that runs on an event. -/
def EventKind.methodName : EventKind → String
  | .start => "Start"
  | .update => "Update"
  | .fixedUpdate => "FixedUpdate"
  | .custom name => "On" ++ name

/-- Whether a script has to subscribe to the event. -/
def EventKind.needsRegistration : EventKind → Bool
  | .custom _ => true
  | _ => false

/-- A function of the script. -/
structure FunctionDecl where
  name : String
  returnType : TypeHandle
  /-- The event that starts it, if one does. -/
  event : Option EventKind
deriving DecidableEq, Repr, Inhabited

/-- A function that is called by its name. -/
def FunctionDecl.method (name : String) (returnType : TypeHandle) : FunctionDecl :=
  ⟨name, returnType, none⟩

/-- A function that is started by an event. -/
def FunctionDecl.onEvent (event : EventKind) : FunctionDecl :=
  ⟨event.methodName, .void, some event⟩

/-- The name of the method of a function. -/
def FunctionDecl.methodName (f : FunctionDecl) : String :=
  match f.event with
  | some event => event.methodName
  | none => f.name

/-- A call of a method, with the types its variables stand for as far as they are known. -/
structure CallDecl where
  method : MethodRef
  typeArguments : OrderedMap String TypeHandle
deriving DecidableEq

/-- A call with nothing known about its types. -/
def CallDecl.plain (method : MethodRef) : CallDecl := ⟨method, ∅⟩

/-- Whether two calls are the same apart from the order of their type arguments. -/
def CallDecl.agrees (a b : CallDecl) : Bool :=
  a.method = b.method && a.typeArguments.size = b.typeArguments.size
    && a.typeArguments.entries.all fun (name, handle) => b.typeArguments.get? name = some handle

/-- What a node does. -/
inductive NodeKind where
  /-- Holds the nodes that run one after the other. -/
  | stack
  /-- Holds the nodes of the body of a loop. -/
  | loopStack
  /-- Holds the first nodes of a function. -/
  | function (decl : FunctionDecl)
  | constant (value : Constant)
  | getVariable (id : VariableId)
  | setVariable (id : VariableId)
  | binary (op : BinaryOperator)
  | unary (op : UnaryOperator)
  | call (decl : CallDecl)
  /-- The object that the script runs on. -/
  | this
  | branch
  /-- Branches by an integer, with one output for each case. -/
  | select (cases : List Int64)
  /-- Runs its body while a condition holds. -/
  | repeated
  /-- Runs its body for each item of a collection. -/
  | forEach
  /-- Leaves the function. -/
  | leave
  /-- A kind that an extension defines. -/
  | custom (typeId : String) (config : OrderedMap String String)
deriving DecidableEq

instance : Inhabited NodeKind := ⟨.stack⟩

namespace NodeKind

/-- The name of the kind of a node. -/
def typeId : NodeKind → String
  | stack => "stack"
  | loopStack => "loop_stack"
  | function _ => "function"
  | constant _ => "constant"
  | getVariable _ => "get_variable"
  | setVariable _ => "set_variable"
  | binary _ => "binary_operator"
  | unary _ => "unary_operator"
  | call _ => "function_call"
  | this => "this"
  | branch => "if"
  | select _ => "switch"
  | repeated => "while"
  | forEach => "for_each"
  | leave => "return"
  | custom typeId _ => typeId

/-- Whether a node holds other nodes. -/
def isStack : NodeKind → Bool
  | stack | loopStack | function _ => true
  | _ => false

/-- Whether a node ends its stack by a choice among outputs. -/
def isBranching : NodeKind → Bool
  | branch | select _ => true
  | _ => false

/-- Whether a node leaves its function. -/
def isLeave : NodeKind → Bool
  | leave => true
  | _ => false

/-- Whether a node has a body that is repeated. -/
def isLoop : NodeKind → Bool
  | repeated | forEach => true
  | _ => false

/-- Whether a node may stand in a stack. -/
def isStackable : NodeKind → Bool
  | setVariable _ | call _ | branch | select _ | repeated | forEach | leave | custom _ _ => true
  | _ => false

/-- The function of a function node. -/
def function? : NodeKind → Option FunctionDecl
  | function decl => some decl
  | _ => none

/-- The call of a call node. -/
def call? : NodeKind → Option CallDecl
  | call decl => some decl
  | _ => none

/-- The variable that a node reads or writes. -/
def accessed? : NodeKind → Option VariableId
  | getVariable id | setVariable id => some id
  | _ => none

/-- The title of a new node. -/
def defaultTitle : NodeKind → String
  | stack => "Stack"
  | loopStack => "Loop"
  | function decl => decl.name
  | constant value => value.type.text ++ " Constant"
  | getVariable _ => "Get Variable"
  | setVariable _ => "Set Variable"
  | binary op => op.title
  | unary op => op.name
  | call decl => decl.method.text
  | this => "This"
  | branch => "If"
  | select _ => "Switch"
  | repeated => "While"
  | forEach => "For Each"
  | leave => "Return"
  | custom typeId _ => typeId

end NodeKind

/-- What may be done with a node in an editor. -/
structure NodeCapabilities where
  deletable : Bool
  copiable : Bool
  renamable : Bool
  collapsible : Bool
deriving DecidableEq, Repr

/-- What may be done with nodes of a kind. -/
def NodeKind.capabilities : NodeKind → NodeCapabilities
  | .function _ => ⟨true, false, true, false⟩
  | .stack | .loopStack => ⟨true, true, false, false⟩
  | _ => ⟨true, true, false, true⟩

/-- A place on the canvas. -/
structure Position where
  x : Single
  y : Single
deriving DecidableEq, Repr, Inhabited

/-- The place that is moved by as much as another place is off the origin. -/
def Position.moved (p delta : Position) : Position := ⟨p.x + delta.x, p.y + delta.y⟩

/-- A color by its parts. -/
structure Color where
  red : UInt8
  green : UInt8
  blue : UInt8
deriving DecidableEq, Repr, Inhabited

/-- A node of a graph. -/
structure Node where
  id : NodeId
  kind : NodeKind
  title : String
  position : Position
  color : Option Color
  /-- Whether the node may not be moved or renamed. -/
  locked : Bool
  collapsed : Bool
  /-- The stack that the node stands in. -/
  parent : Option NodeId
  /-- The nodes that stand in the node, in order. -/
  children : List NodeId
  inputs : List Port
  outputs : List Port
  /-- The values of data inputs that nothing is connected to. -/
  constants : OrderedMap PortId Constant
  /-- Whether the ports have been defined. -/
  defined : Bool
deriving DecidableEq

namespace Node

/-- A node without ports. -/
def new (id : NodeId) (kind : NodeKind) : Node where
  id := id
  kind := kind
  title := kind.defaultTitle
  position := default
  color := none
  locked := false
  collapsed := false
  parent := none
  children := []
  inputs := []
  outputs := []
  constants := ∅
  defined := false

instance : Inhabited Node := ⟨new default default⟩

/-- The input of a name. -/
def input? (n : Node) (name : String) : Option Port := n.inputs.find? (·.name = name)

/-- The output of a name. -/
def output? (n : Node) (name : String) : Option Port := n.outputs.find? (·.name = name)

/-- The ports, inputs first. -/
def ports (n : Node) : List Port := n.inputs ++ n.outputs

/-- The port of an identity. -/
def port? (n : Node) (id : PortId) : Option Port := n.ports.find? (·.id = id)

/-- The inputs that take values. -/
def dataInputs (n : Node) : List Port := n.inputs.filter (·.kind = .data)

/-- The outputs that execution leaves through. -/
def execOutputs (n : Node) : List Port :=
  n.outputs.filter fun p => p.direction = .output && p.kind = .execution

/-- Whether the node stands in a stack. -/
def isStacked (n : Node) : Bool := n.parent.isSome

/-- What may be done with the node. -/
def capabilities (n : Node) : NodeCapabilities := n.kind.capabilities

end Node

end NodeScript
