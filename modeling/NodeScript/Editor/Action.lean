import NodeScript.Editor.Reconcile
import NodeScript.Editor.Store
import NodeScript.Graph.Inference

/-!
The actions of an editor. Each is an edit of the graph that also notes what it has touched, so that
a view can be brought in line with the graph afterwards. A rejected action changes nothing.
-/

namespace NodeScript

/-- A graph that is being edited. -/
structure EditorState where
  graph : Graph
  /-- What has changed since the view was last brought in line. -/
  changes : ChangeList
  /-- Whether the graph may differ from the one that was saved. -/
  dirty : Bool
  /-- Where the identities of new elements come from. -/
  supply : IdSupply

/-- A graph that has just been opened. -/
def EditorState.opened (g : Graph) (supply : IdSupply) : EditorState := ⟨g, .empty, false, supply⟩

/-- A place in a stack; without an index it is the end. -/
structure StackPlace where
  stack : NodeId
  index : Option Nat
deriving DecidableEq, Repr

/-- An action of an editor. -/
inductive EditorAction where
  /-- Makes a node, in a stack or at a position. -/
  | createNode (kind : NodeKind) (position : Position) (place : Option StackPlace)
  /-- Removes edges and nodes; locked nodes stay. -/
  | deleteElements (nodes : List NodeId) (edges : List EdgeId)
  /-- Connects an output with an input by their names. -/
  | connectPorts (source : NodeId) (output : String) (target : NodeId) (input : String)
  | disconnectEdges (edges : List EdgeId)
  /-- Moves nodes; locked nodes and those in stacks stay where they are. -/
  | moveNodes (nodes : List NodeId) (delta : Position)
  | setLocked (nodes : List NodeId) (locked : Bool)
  | setColor (nodes : List NodeId) (color : Option Color)
  /-- Collapses or expands nodes; those whose kind does not allow it stay as they are. -/
  | setCollapsed (nodes : List NodeId) (collapsed : Bool)
  | renameNode (node : NodeId) (title : String)
  /-- Makes a call node call another method. -/
  | changeMethod (node : NodeId) (method : MethodRef)
  /-- Sets the value of an input. -/
  | setConstant (node : NodeId) (input : String) (value : Constant)
  /-- Forgets the changes, the view having been brought in line. -/
  | acknowledgeChanges
  /-- Says that the graph has been saved. -/
  | markSaved
  /-- An action of another kind, by the name of the kind. -/
  | other (name : String)

instance : Action EditorAction where
  actionName
    | .createNode .. => "CreateNode"
    | .deleteElements .. => "DeleteElements"
    | .connectPorts .. => "ConnectPorts"
    | .disconnectEdges .. => "DisconnectEdges"
    | .moveNodes .. => "MoveNodes"
    | .setLocked .. => "SetNodesLocked"
    | .setColor .. => "SetNodeColor"
    | .setCollapsed .. => "SetNodesCollapsed"
    | .renameNode .. => "RenameNode"
    | .changeMethod .. => "ChangeFunctionCallMethod"
    | .setConstant .. => "SetEmbeddedConstant"
    | .acknowledgeChanges => "AcknowledgeChanges"
    | .markSaved => "MarkSaved"
    | .other name => name

/-- Why an action is rejected. -/
inductive ActionError where
  | graph (error : GraphError)
  | connection (error : ConnectionError)
  | edgeNotFound (edge : EdgeId)
deriving DecidableEq, Repr

/-- The wording of the error. -/
def ActionError.message : ActionError → String
  | .graph error => error.message
  | .connection error => error.message
  | .edgeNotFound edge => s!"Edge not found: {edge.shown}"

instance : ToString ActionError := ⟨ActionError.message⟩

namespace EditorState

/-- The result of an edit. -/
abbrev Edited := Except ActionError EditorState

/-- A failed edit of the graph is a rejected action. -/
def ofGraphEdit {α : Type} : Except GraphError α → Except ActionError α
  | .ok value => .ok value
  | .error e => .error (.graph e)

/-- Notes a change of a node. -/
def markNode (s : EditorState) (node : NodeId) : EditorState :=
  { s with changes := s.changes.markNode node }

/-- Notes a change of an element. -/
def mark (s : EditorState) (element : ElementRef) : EditorState :=
  { s with changes := s.changes.mark element }

/-- Notes that edges are gone. -/
def markAllDeleted (s : EditorState) (edges : List EdgeId) : EditorState :=
  { s with changes := s.changes.markAllDeleted edges }

/-- The edges of a node by their identities. -/
def edgeIdsOf (g : Graph) (node : NodeId) : List EdgeId := (g.edgesOf node).map (·.id)

/-- Makes a node. -/
def createNode (env : DefinitionEnv) (s : EditorState) (kind : NodeKind) (position : Position)
    (place : Option StackPlace) : Edited :=
  match place with
  | some place =>
    match s.graph.push env place.stack place.index kind s.supply with
    | (.error e, _) => .error (.graph e)
    | (.ok id, graph, supply) =>
      .ok (({ s with graph, supply }.markNode place.stack).markNode id)
  | none =>
    match s.graph.spawn env kind position s.supply with
    | (.error e, _) => .error (.graph e)
    | (.ok id, graph, supply) => .ok ({ s with graph, supply }.markNode id)

/-- Removes an edge, if it is there. -/
def deleteEdge (s : EditorState) (edge : EdgeId) : EditorState :=
  match s.graph.disconnect edge with
  | (some _, graph) => { s with graph, changes := s.changes.markDeleted edge }
  | (none, _) => s

/-- Removes a node with what stands in it, if it is there and may be removed. -/
def deleteNode (s : EditorState) (id : NodeId) : EditorState :=
  match s.graph.node? id with
  | none => s
  | some n =>
    if n.locked || !n.capabilities.deletable then s
    else
      let inside := s.graph.children id
      let edges := inside.flatMap (edgeIdsOf s.graph) ++ edgeIdsOf s.graph id
      { s with
        graph := (s.graph.remove id).2
        changes := (s.changes.markAllDeleted edges).markNodes (id :: inside ++ n.parent.toList) }

/-- Removes edges, and then nodes. -/
def deleteElements (s : EditorState) (nodes : List NodeId) (edges : List EdgeId) : EditorState :=
  nodes.foldl deleteNode (edges.foldl deleteEdge s)

/-- Infers the types of a node that is a call, as far as that is possible, and notes its change. -/
def refreshCall (env : DefinitionEnv) (s : EditorState) (node : NodeId) : EditorState :=
  if (s.graph.node? node).any fun n => n.kind.call?.isSome then
    let (_, graph, supply) := s.graph.inferNode env node s.supply
    { s with graph, supply }.markNode node
  else s

/-- Connects an output with an input. -/
def connectPorts (env : DefinitionEnv) (s : EditorState) (source : NodeId) (output : String)
    (target : NodeId) (input : String) : Edited :=
  match s.graph.connectByName source output target input s.supply with
  | .error e => .error (.connection e)
  | .ok (edge, graph, supply) =>
    let connected := { s with graph, supply }.mark (.edge edge)
    .ok ((connected.refreshCall env source).refreshCall env target)

/-- Removes an edge that has to be there. -/
def disconnectEdge (s : EditorState) (edge : EdgeId) : Edited :=
  match s.graph.disconnect edge with
  | (some _, graph) => .ok { s with graph, changes := s.changes.markDeleted edge }
  | (none, _) => .error (.edgeNotFound edge)

/-- Edits a node that has to be there and notes its change. -/
def editNode (edit : Graph → NodeId → Except GraphError Graph) (s : EditorState) (node : NodeId) :
    Edited :=
  (ofGraphEdit (edit s.graph node)).map fun graph => { s with graph }.markNode node

/-- Edits a node that has to be there, if a test says so. -/
def editNodeIf (test : Node → Bool) (edit : Graph → Node → Except GraphError Graph)
    (s : EditorState) (node : NodeId) : Edited :=
  match s.graph.node? node with
  | none => .error (.graph (.nodeNotFound node))
  | some n => if test n then s.editNode (fun g _ => edit g n) node else .ok s

/-- Moves a node, if it may be moved. -/
def moveNode (delta : Position) (s : EditorState) (node : NodeId) : Edited :=
  s.editNodeIf (fun n => !n.locked && n.parent.isNone)
    (fun g n => g.setPosition node (n.position.moved delta)) node

/-- Collapses or expands a node, if its kind allows it. -/
def collapseNode (collapsed : Bool) (s : EditorState) (node : NodeId) : Edited :=
  s.editNodeIf (fun n => n.capabilities.collapsible)
    (fun g _ => g.setCollapsed node collapsed) node

/-- Renames a node, if its kind allows it. -/
def renameNode (s : EditorState) (node : NodeId) (title : String) : Edited :=
  match s.graph.node? node with
  | none => .error (.graph (.nodeNotFound node))
  | some n =>
    if n.capabilities.renamable then s.editNode (fun g id => g.setTitle id title) node
    else .error (.graph (.notAllowed s!"renaming {n.kind.typeId}"))

/-- Makes a call node call another method. The edges that its new ports do not keep are noted. -/
def changeMethod (env : DefinitionEnv) (s : EditorState) (node : NodeId) (method : MethodRef) :
    Edited :=
  match s.graph.setCallMethod env node method s.supply with
  | (.error e, _, _) => .error (.graph e)
  | (.ok (), graph, supply) =>
    let lost := (edgeIdsOf s.graph node).filter fun edge => (graph.edge? edge).isNone
    .ok (({ s with graph, supply }.markAllDeleted lost).refreshCall env node)

end EditorState

/-- What an action does to the graph. -/
def EditorAction.edit (env : DefinitionEnv) (s : EditorState) :
    EditorAction → Except ActionError EditorState
  | .createNode kind position place => s.createNode env kind position place
  | .deleteElements nodes edges => .ok (s.deleteElements nodes edges)
  | .connectPorts source output target input => s.connectPorts env source output target input
  | .disconnectEdges edges => edges.foldlM EditorState.disconnectEdge s
  | .moveNodes nodes delta => nodes.foldlM (EditorState.moveNode delta) s
  | .setLocked nodes locked =>
    nodes.foldlM (EditorState.editNode fun g id => g.setLocked id locked) s
  | .setColor nodes color => nodes.foldlM (EditorState.editNode fun g id => g.setColor id color) s
  | .setCollapsed nodes collapsed => nodes.foldlM (EditorState.collapseNode collapsed) s
  | .renameNode node title => s.renameNode node title
  | .changeMethod node method => s.changeMethod env node method
  | .setConstant node input value => s.editNode (fun g id => g.setConstant id input value) node
  | .acknowledgeChanges | .markSaved | .other _ => .ok s

/-- Carries out an action. Whatever edits the graph makes it differ from the one that was saved. -/
def EditorAction.run (env : DefinitionEnv) (s : EditorState) (action : EditorAction) :
    Except ActionError EditorState :=
  match action with
  | .acknowledgeChanges => .ok { s with changes := .empty }
  | .markSaved => .ok { s with dirty := false }
  | _ => action.edit env { s with dirty := true }

/-- The names of the actions that an editor knows. -/
def editorActionNames : List String :=
  ["CreateNode", "DeleteElements", "ConnectPorts", "DisconnectEdges", "MoveNodes", "SetNodesLocked",
    "SetNodeColor", "SetNodesCollapsed", "RenameNode", "ChangeFunctionCallMethod",
    "SetEmbeddedConstant", "AcknowledgeChanges", "MarkSaved"]

/-- The reducer of the actions of an editor. -/
def editorReducer (env : DefinitionEnv) : Reducer EditorState EditorAction := fun s action =>
  (action.run env s).mapError ActionError.message

/-- The reducers of an editor by the names of the actions. -/
def editorReducers (env : DefinitionEnv) : OrderedMap String (Reducer EditorState EditorAction) :=
  .ofList (editorActionNames.map fun name => (name, editorReducer env))

end NodeScript
