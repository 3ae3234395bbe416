import NodeScript.Graph.Define

/-!
Edits of graphs. A refused edit says why; unless it is said otherwise, nothing has changed then.
-/

namespace NodeScript

/-- Why two ports could not be connected. -/
inductive ConnectionError where
  | nodeNotFound (node : NodeId)
  | portNotFound (port : PortId)
  | portNameNotFound (name : String)
  | wrongDirection
  | incompatiblePorts
  | portAlreadyConnected (port : PortId)
  | selfLoop
deriving DecidableEq, Repr

/-- The wording of the error. -/
def ConnectionError.message : ConnectionError → String
  | .nodeNotFound node => s!"Node not found: {node.shown}"
  | .portNotFound port => s!"Port not found: {port.shown}"
  | .portNameNotFound name => s!"Port not found: {name}"
  | .wrongDirection => "Connections go from an output port to an input port"
  | .incompatiblePorts => "Incompatible port types"
  | .portAlreadyConnected port => s!"Port already connected: {port.shown}"
  | .selfLoop => "Self-loop not allowed"

instance : ToString ConnectionError := ⟨ConnectionError.message⟩

/-- Why a graph could not be edited. -/
inductive GraphError where
  | nodeNotFound (node : NodeId)
  | portNotFound (name : String)
  | notAStack (node : NodeId)
  | notAFunctionCall (node : NodeId)
  | notStackable (typeId : String)
  | notAllowed (typeId : String)
  | locked (node : NodeId)
  | definition (error : DefinitionError)
  | connection (error : ConnectionError)
deriving DecidableEq, Repr

/-- The wording of the error. -/
def GraphError.message : GraphError → String
  | .nodeNotFound node => s!"Node not found: {node.shown}"
  | .portNotFound name => s!"Port not found: {name}"
  | .notAStack node => s!"Node is not a stack: {node.shown}"
  | .notAFunctionCall node => s!"Node is not a function call: {node.shown}"
  | .notStackable typeId => s!"Node type cannot be stacked: {typeId}"
  | .notAllowed typeId => s!"Node type not allowed in this graph: {typeId}"
  | .locked node => s!"Node is locked: {node.shown}"
  | .definition error => error.message
  | .connection error => error.message

instance : ToString GraphError := ⟨GraphError.message⟩

/-- Whether nodes of a kind may stand in stacks; of extensions, those that say so. -/
def DefinitionEnv.stackable (env : DefinitionEnv) : NodeKind → Bool
  | .custom typeId _ => (env.extensions.get? typeId).any (·.stackable)
  | kind => kind.isStackable

namespace Graph

/-- Removes what refers to a node that is no longer there: its place in its stack, its edges, and
the variables of a function. -/
def forget (g : Graph) (n : Node) (id : NodeId) : Graph :=
  let nodes := match n.parent with
    | some parent =>
      g.nodes.modify parent fun p => { p with children := p.children.filter (· ≠ id) }
    | none => g.nodes
  { g with
    nodes
    edges := g.edges.filter fun _ e => !e.involvesNode id
    vars := match n.kind with
      | .function _ => g.vars.filter fun _ v => !(v.scope.function? = some id)
      | _ => g.vars }

/-- Removes a node with what stands in it, to a depth at most. -/
def removeWithin : (depth : Nat) → Graph → NodeId → Graph
  | 0, g, _ => g
  | depth + 1, g, id =>
    match g.node? id with
    | none => g
    | some n =>
      let without : Graph := { g with nodes := g.nodes.erase id }
      (n.children.foldl (removeWithin depth) without).forget n id

/-- Removes a node with what stands in it, and returns the node. Every node that is removed makes
the graph smaller, so what stands in one another is no deeper than the graph is large. -/
def remove (g : Graph) (id : NodeId) : Option Node × Graph :=
  (g.node? id, removeWithin g.nodes.size g id)

/-- Adds a node and defines its ports. When they cannot be defined, the node is taken out again. -/
def spawn (g : Graph) (env : DefinitionEnv) (kind : NodeKind) (position : Position)
    (supply : IdSupply) : Except GraphError NodeId × Graph × IdSupply :=
  if g.stencil.allows kind then
    let (uuid, supply) := supply.fresh
    let id : NodeId := ⟨uuid⟩
    let added := g.addNode { Node.new id kind with position }
    match added.defineNode env id supply with
    | .ok (g, supply) => (.ok id, g, supply)
    | .error e => (.error (.definition e), { added with nodes := added.nodes.erase id }, supply)
  else (.error (.notAllowed kind.typeId), g, supply)

/-- Adds a node to a stack, behind the others or at a place among them, and defines its ports. When
they cannot be defined, the node is removed again. -/
def push (g : Graph) (env : DefinitionEnv) (stack : NodeId) (index : Option Nat) (kind : NodeKind)
    (supply : IdSupply) : Except GraphError NodeId × Graph × IdSupply :=
  match g.node? stack with
  | none => (.error (.nodeNotFound stack), g, supply)
  | some holder =>
    if !holder.kind.isStack then (.error (.notAStack stack), g, supply)
    else if !env.stackable kind then (.error (.notStackable kind.typeId), g, supply)
    else if !g.stencil.allows kind then (.error (.notAllowed kind.typeId), g, supply)
    else
      let (uuid, supply) := supply.fresh
      let id : NodeId := ⟨uuid⟩
      let place := min (index.getD holder.children.length) holder.children.length
      let added := (g.addNode { Node.new id kind with parent := some stack }).modifyNode stack
        fun n => { n with children := n.children.insertIdx place id }
      match added.defineNode env id supply with
      | .ok (g, supply) => (.ok id, g, supply)
      | .error e => (.error (.definition e), (added.remove id).2, supply)

/-- Makes a call node call another method. Nothing is known about its types then. When the method is
known but its ports cannot be defined, the node calls it all the same. -/
def setCallMethod (g : Graph) (env : DefinitionEnv) (id : NodeId) (method : MethodRef)
    (supply : IdSupply) : Except GraphError Unit × Graph × IdSupply :=
  match g.node? id with
  | none => (.error (.nodeNotFound id), g, supply)
  | some n =>
    match n.kind with
    | .call _ =>
      if (env.oracle.method? method).isNone then
        (.error (.definition (.unknownMethod method)), g, supply)
      else
        let kind : NodeKind := .call (.plain method)
        let bound := g.modifyNode id fun n => { n with kind, title := kind.defaultTitle }
        match bound.defineNode env id supply with
        | .ok (g, supply) => (.ok (), g, supply)
        | .error e => (.error (.definition e), bound, supply)
    | _ => (.error (.notAFunctionCall id), g, supply)

/-- Sets the value of an input. -/
def setConstant (g : Graph) (id : NodeId) (input : String) (value : Constant) :
    Except GraphError Graph :=
  match g.node? id with
  | none => .error (.nodeNotFound id)
  | some n =>
    match n.dataInputs.find? (·.name = input) with
    | none => .error (.portNotFound input)
    | some p =>
      .ok (g.modifyNode id fun n => { n with constants := n.constants.insert p.id value })

/-- What keeps an edge from leading from one port to another. -/
def connectionFault? (g : Graph) (fromNode toNode : NodeId) (source target : Port) :
    Option ConnectionError :=
  if source.direction ≠ .output || target.direction ≠ .input then some .wrongDirection
  else if !source.canConnect target then some .incompatiblePorts
  else if fromNode = toNode then some .selfLoop
  else if !target.acceptsMultiple && !(g.edgesTo target.id).isEmpty then
    some (.portAlreadyConnected target.id)
  else if !source.acceptsMultiple && !(g.edgesFrom source.id).isEmpty then
    some (.portAlreadyConnected source.id)
  else if (g.edgesFrom source.id).any (·.input.port = target.id) then
    some (.portAlreadyConnected target.id)
  else none

/-- Connects an output with an input. -/
def connect (g : Graph) (fromNode : NodeId) (fromPort : PortId) (toNode : NodeId) (toPort : PortId)
    (supply : IdSupply) : Except ConnectionError (EdgeId × Graph × IdSupply) :=
  match g.node? fromNode, g.node? toNode with
  | none, _ => .error (.nodeNotFound fromNode)
  | some _, none => .error (.nodeNotFound toNode)
  | some a, some b =>
    match a.port? fromPort, b.port? toPort with
    | none, _ => .error (.portNotFound fromPort)
    | some _, none => .error (.portNotFound toPort)
    | some source, some target =>
      match g.connectionFault? fromNode toNode source target with
      | some fault => .error fault
      | none =>
        let (uuid, supply) := supply.fresh
        let id : EdgeId := ⟨uuid⟩
        .ok (id, { g with edges := g.edges.insert id ⟨id, source.ref, target.ref⟩ }, supply)

/-- Connects an output with an input by their names. -/
def connectByName (g : Graph) (fromNode : NodeId) (output : String) (toNode : NodeId)
    (input : String) (supply : IdSupply) :
    Except ConnectionError (EdgeId × Graph × IdSupply) :=
  match g.node? fromNode with
  | none => .error (.nodeNotFound fromNode)
  | some a =>
    match a.output? output with
    | none => .error (.portNameNotFound output)
    | some source =>
      match g.node? toNode with
      | none => .error (.nodeNotFound toNode)
      | some b =>
        match b.input? input with
        | none => .error (.portNameNotFound input)
        | some target => g.connect fromNode source.id toNode target.id supply

/-- Removes an edge and returns it. -/
def disconnect (g : Graph) (id : EdgeId) : Option Edge × Graph :=
  (g.edge? id, { g with edges := g.edges.erase id })

/-- Removes the edges with an end at a port and returns them. -/
def disconnectPort (g : Graph) (port : PortId) : List Edge × Graph :=
  let ids := (g.edges.values.filter (·.involvesPort port)).map (·.id)
  (ids.eraseDups.filterMap g.edge?,
    { g with edges := g.edges.filter fun id _ => !ids.contains id })

/-- Declares a variable. -/
def addVariable (g : Graph) (v : VariableDecl) : Graph :=
  { g with vars := g.vars.insert v.id v }

/-- Removes a variable and the nodes that read or write it, and returns it. -/
def removeVariable (g : Graph) (id : VariableId) : Option VariableDecl × Graph :=
  match g.variableDecl? id with
  | none => (none, g)
  | some v =>
    let users := (g.nodes.values.filter fun n => n.kind.accessed? = some id).map (·.id)
    let without : Graph := { g with vars := g.vars.erase id }
    (some v, users.foldl (fun g user => (g.remove user).2) without)

/-- Changes a node, if it is there. -/
def change (g : Graph) (id : NodeId) (edit : Node → Node) : Except GraphError Graph :=
  match g.node? id with
  | none => .error (.nodeNotFound id)
  | some _ => .ok (g.modifyNode id edit)

/-- Changes a node, if it is there and not locked. -/
def changeUnlocked (g : Graph) (id : NodeId) (edit : Node → Node) : Except GraphError Graph :=
  match g.node? id with
  | none => .error (.nodeNotFound id)
  | some n => if n.locked then .error (.locked id) else .ok (g.modifyNode id edit)

/-- Moves a node that is not locked. -/
def setPosition (g : Graph) (id : NodeId) (position : Position) : Except GraphError Graph :=
  g.changeUnlocked id fun n => { n with position }

/-- Renames a node that is not locked. -/
def setTitle (g : Graph) (id : NodeId) (title : String) : Except GraphError Graph :=
  g.changeUnlocked id fun n => { n with title }

/-- Locks or unlocks a node. -/
def setLocked (g : Graph) (id : NodeId) (locked : Bool) : Except GraphError Graph :=
  g.change id fun n => { n with locked }

/-- Gives a node a color, or takes it away. -/
def setColor (g : Graph) (id : NodeId) (color : Option Color) : Except GraphError Graph :=
  g.change id fun n => { n with color }

/-- Collapses or expands a node, if nodes of its kind can be collapsed. -/
def setCollapsed (g : Graph) (id : NodeId) (collapsed : Bool) : Except GraphError Graph :=
  g.change id fun n =>
    if n.capabilities.collapsible then { n with collapsed } else n

end Graph

end NodeScript
