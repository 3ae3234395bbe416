import NodeScript.Graph.Basic

/-!
What lies before and behind a node: the nodes that its edges lead to, however far, and the function
that execution reaches it from.
-/

namespace NodeScript

namespace Graph

/-- Adds the members of a list that are new, first to what was found, then to what is still to be
looked at. -/
def discover (start : NodeId) (found queue : List NodeId) : List NodeId → List NodeId × List NodeId
  | [] => (found, queue)
  | next :: rest =>
    if next = start || found.contains next then discover start found queue rest
    else discover start (found ++ [next]) (queue ++ [next]) rest

/-- Looks at the nodes of a queue in order and appends to it what they lead to. -/
def explore (step : NodeId → List NodeId) (start : NodeId) :
    (steps : Nat) → (found queue : List NodeId) → List NodeId
  | 0, found, _ => found
  | _, found, [] => found
  | steps + 1, found, current :: rest =>
    let (found, queue) := discover start found rest (step current)
    explore step start steps found queue

/-- The nodes that can be reached from a node, nearer ones first, without the node itself. Every
step looks at one node, and beside the start only ends of edges are ever looked at. -/
def walk (g : Graph) (step : NodeId → List NodeId) (start : NodeId) : List NodeId :=
  explore step start (g.edges.size + 1) [] [start]

/-- The nodes that edges lead to from a node. -/
def targets (g : Graph) (node : NodeId) : List NodeId :=
  (g.edges.values.filter (·.output.node = node)).map (·.input.node)

/-- The nodes that edges come from to a node. -/
def sources (g : Graph) (node : NodeId) : List NodeId :=
  (g.edges.values.filter (·.input.node = node)).map (·.output.node)

/-- Every node that lies behind a node. -/
def descendants (g : Graph) (node : NodeId) : List NodeId := g.walk g.targets node

/-- Every node that lies before a node. -/
def ancestors (g : Graph) (node : NodeId) : List NodeId := g.walk g.sources node

/-- Where execution comes from: a stack is entered through its first edge, any other node from its
stack. -/
def previous? (g : Graph) (n : Node) : Option NodeId :=
  if n.kind.isStack then do
    let port ← n.input? "In"
    let edge ← (g.edgesTo port.id).head?
    return edge.output.node
  else n.parent

/-- Goes back along execution until a function is met. -/
def ownerWithin (g : Graph) : (steps : Nat) → NodeId → Option NodeId
  | 0, _ => none
  | steps + 1, id =>
    match g.node? id with
    | none => none
    | some n =>
      match n.kind with
      | .function _ => some id
      | _ => (g.previous? n).bind (g.ownerWithin steps)

/-- The function that execution reaches a node from. Going back passes every node once at most,
unless it goes round for ever. -/
def owningFunction? (g : Graph) (node : NodeId) : Option NodeId :=
  g.ownerWithin (g.nodes.size + 1) node

end Graph

end NodeScript
