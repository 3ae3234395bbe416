import NodeScript.Typing.TypeText
import NodeScript.Uuid

/-!
Ports, through which nodes are connected, and the edges between them.
-/

namespace NodeScript

/-- Which way a port faces. -/
inductive PortDirection where
  | input | output
deriving DecidableEq, Repr, Inhabited

/-- What goes through a port. -/
inductive PortKind where
  /-- A value. -/
  | data
  /-- The flow of execution. -/
  | execution
  /-- The object that a member belongs to. -/
  | receiver
deriving DecidableEq, Repr, Inhabited

/-- Whether values go through ports of this kind. -/
def PortKind.carriesValue : PortKind → Bool
  | .execution => false
  | _ => true

/-- A port before it has an identity. -/
structure PortSpec where
  name : String
  direction : PortDirection
  kind : PortKind
  type : TypeHandle
deriving DecidableEq, Repr, Inhabited

namespace PortSpec

/-- An input for a value. -/
def dataInput (name : String) (type : TypeHandle) : PortSpec := ⟨name, .input, .data, type⟩

/-- An output for a value. -/
def dataOutput (name : String) (type : TypeHandle) : PortSpec := ⟨name, .output, .data, type⟩

/-- An input for the object that a member belongs to. -/
def instanceInput (name : String) (type : TypeHandle) : PortSpec := ⟨name, .input, .receiver, type⟩

/-- An output for an object. -/
def instanceOutput (name : String) (type : TypeHandle) : PortSpec :=
  ⟨name, .output, .receiver, type⟩

/-- A port through which execution comes in. -/
def execInput (name : String) : PortSpec := ⟨name, .input, .execution, .execution⟩

/-- A port through which execution goes on. -/
def execOutput (name : String) : PortSpec := ⟨name, .output, .execution, .execution⟩

end PortSpec

/-- A port of a node. -/
structure Port where
  id : PortId
  node : NodeId
  name : String
  direction : PortDirection
  kind : PortKind
  type : TypeHandle
deriving DecidableEq, Repr, Inhabited

/-- Gives a port its identity. -/
def PortSpec.toPort (spec : PortSpec) (id : PortId) (node : NodeId) : Port :=
  ⟨id, node, spec.name, spec.direction, spec.kind, spec.type⟩

/-- Whether a port may have more than one edge: a value comes from one place and execution goes to
one place, but values go and execution comes freely. -/
def Port.acceptsMultiple (p : Port) : Bool :=
  match p.direction, p.kind with
  | .input, .execution => true
  | .input, _ => false
  | .output, .execution => false
  | .output, _ => true

/-- Whether two ports fit together: they face each other, and the same goes through both. -/
def Port.canConnect (a b : Port) : Bool :=
  a.direction ≠ b.direction
    && ((a.kind = .execution && b.kind = .execution)
      || (a.kind.carriesValue && b.kind.carriesValue))

/-- A port with the node that it belongs to. -/
structure PortRef where
  node : NodeId
  port : PortId
deriving DecidableEq, Repr, Inhabited

/-- The reference to a port. -/
def Port.ref (p : Port) : PortRef := ⟨p.node, p.id⟩

/-- An edge from an output to an input. -/
structure Edge where
  id : EdgeId
  output : PortRef
  input : PortRef
deriving DecidableEq, Repr, Inhabited

/-- Why two ports cannot be the ends of an edge. -/
inductive EdgeFault where
  | sourceNotOutput (name : String)
  | targetNotInput (name : String)
deriving DecidableEq, Repr

/-- The wording of the fault. -/
def EdgeFault.message : EdgeFault → String
  | .sourceNotOutput name => s!"edge source `{name}` must be an output port"
  | .targetNotInput name => s!"edge target `{name}` must be an input port"

instance : ToString EdgeFault := ⟨EdgeFault.message⟩

/-- The edge between two ports, if the first is an output and the second an input. -/
def Edge.between (id : EdgeId) (source target : Port) : Except EdgeFault Edge :=
  if source.direction ≠ .output then .error (.sourceNotOutput source.name)
  else if target.direction ≠ .input then .error (.targetNotInput target.name)
  else .ok ⟨id, source.ref, target.ref⟩

/-- Whether an edge has an end at a node. -/
def Edge.involvesNode (e : Edge) (node : NodeId) : Bool :=
  e.output.node = node || e.input.node = node

/-- Whether an edge has an end at a port. -/
def Edge.involvesPort (e : Edge) (port : PortId) : Bool :=
  e.output.port = port || e.input.port = port

end NodeScript
