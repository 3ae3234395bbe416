import NodeScript.Graph.Definition

/-!
Graphs: nodes, edges and variables in the order in which they were added, and what can be asked of
them one step at a time.

Identities for new elements of a graph that was not made here: those that come behind every identity
that the graph uses.
-/

namespace NodeScript

/-! ### Graphs -/

/-- What a graph is made for: its base class, the namespaces it imports, and the kinds of nodes
that it may hold. -/
structure Stencil where
  baseClass : String
  usings : List String
  /-- The names of the allowed kinds; without it every kind is allowed. -/
  allowed : Option (OrderedSet String)
deriving DecidableEq

/-- A stencil that allows everything. -/
def Stencil.ofBase (baseClass : String) : Stencil := ⟨baseClass, [], none⟩

/-- Imports a namespace. -/
def Stencil.withUsing (s : Stencil) (name : String) : Stencil :=
  { s with usings := s.usings ++ [name] }

/-- Allows the named kinds only. -/
def Stencil.restrictTo (s : Stencil) (typeIds : List String) : Stencil :=
  { s with allowed := some (.ofMembers typeIds) }

/-- The stencil of new graphs. -/
def Stencil.standard : Stencil :=
  (((Stencil.ofBase "ScriptBehaviour").withUsing "System").withUsing
    "System.Collections.Generic").withUsing "OrdoPlay.Runtime"

instance : Inhabited Stencil := ⟨.standard⟩

/-- Whether nodes of a kind may be added. -/
def Stencil.allows (s : Stencil) (kind : NodeKind) : Bool :=
  s.allowed.all fun allowed => allowed.contains kind.typeId

/-- A graph. -/
structure Graph where
  name : String
  stencil : Stencil
  nodes : OrderedMap NodeId Node
  edges : OrderedMap EdgeId Edge
  vars : OrderedMap VariableId VariableDecl
deriving DecidableEq

namespace Graph

/-- A graph without nodes. -/
def empty (name : String) : Graph := ⟨name, .standard, ∅, ∅, ∅⟩

instance : Inhabited Graph := ⟨empty "Untitled"⟩

/-- The node of an identity. -/
def node? (g : Graph) (id : NodeId) : Option Node := g.nodes.get? id

/-- The edge of an identity. -/
def edge? (g : Graph) (id : EdgeId) : Option Edge := g.edges.get? id

/-- The variable of an identity. -/
def variableDecl? (g : Graph) (id : VariableId) : Option VariableDecl := g.vars.get? id

/-- The first variable of a name. -/
def variableByName? (g : Graph) (name : String) : Option VariableDecl :=
  g.vars.values.find? (·.name = name)

/-- The place of a node in the order of the graph. -/
def nodeIndex? (g : Graph) (id : NodeId) : Option Nat := g.nodes.index? id

/-- The functions in the order of the graph. -/
def functions (g : Graph) : List (NodeId × FunctionDecl) :=
  g.nodes.values.filterMap fun n => n.kind.function?.map fun decl => (n.id, decl)

/-- The edges that leave a port. -/
def edgesFrom (g : Graph) (port : PortId) : List Edge :=
  g.edges.values.filter (·.output.port = port)

/-- The edges that enter a port. -/
def edgesTo (g : Graph) (port : PortId) : List Edge :=
  g.edges.values.filter (·.input.port = port)

/-- The edges with an end at a node. -/
def edgesOf (g : Graph) (node : NodeId) : List Edge :=
  g.edges.values.filter (·.involvesNode node)

/-- The output that feeds an input, with its node. -/
def inputSource? (g : Graph) (node : NodeId) (input : String) : Option (Node × Port) := do
  let port ← (← g.node? node).input? input
  let edge ← (g.edgesTo port.id).head?
  let source ← g.node? edge.output.node
  return (source, ← source.port? edge.output.port)

/-- The node that execution goes to through a port. -/
def portTarget? (g : Graph) (port : PortId) : Option NodeId :=
  (g.edgesFrom port).head?.map (·.input.node)

/-- The node that execution goes to through an output. -/
def execTarget? (g : Graph) (node : NodeId) (output : String) : Option NodeId := do
  let port ← (← g.node? node).output? output
  g.portTarget? port.id

/-- The stack that a node stands in. -/
def stackOf? (g : Graph) (node : NodeId) : Option NodeId := do (← g.node? node).parent

/-- What stands in a stack. -/
def children (g : Graph) (stack : NodeId) : List NodeId :=
  ((g.node? stack).map (·.children)).getD []

/-- The first node of a stack that ends its execution. -/
def terminal? (g : Graph) (stack : NodeId) : Option Node :=
  ((g.children stack).filterMap g.node?).find? fun n => n.kind.isBranching || n.kind.isLeave

/-- The stacks that execution goes on to behind a stack: one for each output of a choice, which may
be unconnected, none when the function is left, and otherwise the target of the stack itself. -/
def successors (g : Graph) (stack : NodeId) : List (Option NodeId) :=
  match g.terminal? stack with
  | some terminal =>
    if terminal.kind.isLeave then []
    else terminal.execOutputs.map fun p => g.portTarget? p.id
  | none => (g.execTarget? stack "Out").toList.map some

/-- The nodes that share an edge with a node. -/
def connected (g : Graph) (node : NodeId) : List NodeId :=
  ((g.edgesOf node).map fun e =>
    if e.output.node = node then e.input.node else e.output.node).eraseDups

/-- Adds a node, or replaces the one of its identity. -/
def addNode (g : Graph) (n : Node) : Graph := { g with nodes := g.nodes.insert n.id n }

/-- Changes a node. -/
def modifyNode (g : Graph) (id : NodeId) (change : Node → Node) : Graph :=
  { g with nodes := g.nodes.modify id change }

end Graph

/-! ### Fresh identities -/

/-- The family of the identities that are given to graphs that were not made here. -/
def IdSupply.standardFamily : UInt64 := 0xF0E1D2C3B4A54876

/-- The number under which a family holds an identity, if it is of the family. -/
def IdSupply.number? (family : UInt64) (u : Uuid) : Option Nat :=
  let value := u.bits.toNat
  if value / UInt64.size = family.toNat then some (value % UInt64.size) else none

/-- The supply whose identities come behind those of a list. -/
def IdSupply.beyond (used : List Uuid) : IdSupply :=
  let numbers := used.filterMap (IdSupply.number? standardFamily)
  ⟨standardFamily, numbers.foldl (fun next n => max next (n + 1)) 0⟩

/-- The identities that a node uses. -/
def Node.identities (n : Node) : List Uuid := n.id.uuid :: n.ports.map fun p => p.id.uuid

/-- The identities that a graph uses. -/
def Graph.identities (g : Graph) : List Uuid :=
  g.nodes.keys.map NodeId.uuid ++ g.nodes.values.flatMap Node.identities
    ++ g.edges.keys.map EdgeId.uuid ++ g.vars.keys.map VariableId.uuid

/-- A supply of identities that the graph does not use. -/
def Graph.freshSupply (g : Graph) : IdSupply := .beyond g.identities

end NodeScript
