import NodeScript.Editor.View

/-!
Bringing a view in line with its graph. Changed elements are noted in a list; from the list, the
graph and the view a plan is made, and the plan is carried out in three phases: what is gone is
taken out, nodes are drawn anew, and then the edges that touch them. What stands in a stack is
never drawn on its own, but always together with its stack.
-/

namespace NodeScript

/-- What has changed since a view was last brought in line. -/
structure ChangeList where
  changed : OrderedSet ElementRef
  deletedEdges : OrderedSet EdgeId
deriving DecidableEq, Inhabited

namespace ChangeList

/-- Nothing has changed. -/
def empty : ChangeList := ⟨∅, ∅⟩

/-- Notes a change of an element. -/
def mark (c : ChangeList) (element : ElementRef) : ChangeList :=
  { c with changed := c.changed.insert element () }

/-- Notes a change of a node. -/
def markNode (c : ChangeList) (node : NodeId) : ChangeList := c.mark (.node node)

/-- Notes changes of nodes. -/
def markNodes (c : ChangeList) (nodes : List NodeId) : ChangeList := nodes.foldl markNode c

/-- Notes that an edge is gone. -/
def markDeleted (c : ChangeList) (edge : EdgeId) : ChangeList :=
  { c with deletedEdges := c.deletedEdges.insert edge () }

/-- Notes that edges are gone. -/
def markAllDeleted (c : ChangeList) (edges : List EdgeId) : ChangeList := edges.foldl markDeleted c

/-- Whether nothing has changed. -/
def isEmpty (c : ChangeList) : Bool := c.changed.isEmpty && c.deletedEdges.isEmpty

end ChangeList

/-- What has to be done to a view. -/
structure ReconcilePlan where
  /-- What is taken out, with everything that is shown in it. -/
  removals : OrderedSet ElementRef
  /-- The nodes that are drawn anew, stacks with what stands in them. -/
  nodes : OrderedSet NodeId
  /-- The edges that are drawn anew. -/
  edges : OrderedSet EdgeId
deriving DecidableEq, Inhabited

namespace ReconcilePlan

/-- Nothing has to be done. -/
def empty : ReconcilePlan := ⟨∅, ∅, ∅⟩

/-- Whether nothing has to be done. -/
def isEmpty (p : ReconcilePlan) : Bool :=
  p.removals.isEmpty && p.nodes.isEmpty && p.edges.isEmpty

/-- Adds edges. -/
def addEdges (p : ReconcilePlan) (edges : List Edge) : ReconcilePlan :=
  { p with edges := edges.foldl (fun set e => set.insert e.id ()) p.edges }

end ReconcilePlan

namespace Graph

/-- Goes from stack to stack outwards, until a node stands in none or in the one that the way began
at. The way is watched for its start alone: on stacks that go round without coming back there, it
has no end and comes to nothing. -/
def outermostFrom (g : Graph) (start current : NodeId) : Option NodeId :=
  match g.stackOf? current with
  | none => some current
  | some stack =>
    if stack = start then some current
    else by
      -- Written as a term, the call would keep its place in the file as a part of the definition.
      apply outermostFrom
      · exact g
      · exact start
      · exact stack
partial_fixpoint

/-- The outermost stack that a node stands in, or the node itself. Where the stacks stand in one
another and come back to the node, it is the last one before the node. -/
def outermostStack? (g : Graph) (node : NodeId) : Option NodeId := g.outermostFrom node node

end Graph

/-- Plans what follows from one change. -/
def ReconcilePlan.addChange (g : Graph) (p : ReconcilePlan) (element : ElementRef) :
    Option ReconcilePlan :=
  match element with
  | .node id =>
    if (g.node? id).isSome then
      (g.outermostStack? id).map fun root => { p with nodes := p.nodes.insert root () }
    else some p
  | .edge id =>
    if (g.edge? id).isSome then some { p with edges := p.edges.insert id () } else some p

/-- Leaves what stands in a stack to the stack, and plans the edges of it. -/
def ReconcilePlan.absorbChild (g : Graph) (p : ReconcilePlan) (child : NodeId) : ReconcilePlan :=
  ({ p with nodes := p.nodes.erase child }).addEdges (g.edgesOf child)

/-- Leaves what stands in the stacks that are drawn anew to the stacks. -/
def ReconcilePlan.absorbChildren (g : Graph) (p : ReconcilePlan) : ReconcilePlan :=
  let targets := p.nodes.keys.filter fun id => (g.node? id).any fun n => n.kind.isStack
  (targets.flatMap g.children).foldl (absorbChild g) p

/-- Plans the edges of the nodes that are drawn anew. -/
def ReconcilePlan.addTouchedEdges (g : Graph) (p : ReconcilePlan) : ReconcilePlan :=
  p.addEdges (p.nodes.keys.flatMap g.edgesOf)

/-- Whether an element is shown, however deep, in a member of a set; a number of elements is passed
at most. -/
def View.isWithin (v : View) (set : OrderedSet ElementRef) : (steps : Nat) → ElementRef → Bool
  | 0, _ => false
  | steps + 1, element =>
    match (v.get? element).bind Visual.parent with
    | none => false
    | some parent => set.contains parent || v.isWithin set steps parent

/-- What is shown but no longer in the graph. -/
def View.staleElements (v : View) (g : Graph) : OrderedSet ElementRef :=
  .ofMembers (v.visuals.keys.filter fun element => !element.existsIn g)

/-- What has to be taken out one by one: what is no longer in the graph, without what goes together
with the element that it is shown in. -/
def View.removals (v : View) (g : Graph) : OrderedSet ElementRef :=
  let stale := v.staleElements g
  stale.filter fun element _ => !v.isWithin stale (v.visuals.size + 1) element

/-- The plan for changes, unless the stacks around a changed node go round without end. -/
def planChanges (g : Graph) (changes : ChangeList) (v : View) : Option ReconcilePlan := do
  let marked ← changes.changed.keys.foldlM (ReconcilePlan.addChange g) .empty
  let drawn := (marked.absorbChildren g).addTouchedEdges g
  return { drawn with removals := v.removals g }

namespace View

/-- Takes out what is gone. -/
def removeStale (v : View) (p : ReconcilePlan) : View :=
  p.removals.keys.foldl (fun v element => (v.remove element).2) v

/-- Shows a node in an element, if nodes of its kind can be drawn. -/
def addNode (v : View) (artist : NodeArtist) (g : Graph) (n : Node) (parent : Option ElementRef) :
    View :=
  match artist.drawNode? g n with
  | some look => v.add (.node n.id) ⟨look, parent⟩
  | none => v

/-- Shows a node anew, with what stands in it. A node that cannot be drawn is only taken out. -/
def redrawNode (artist : NodeArtist) (g : Graph) (v : View) (id : NodeId) : View :=
  match g.node? id with
  | none => v
  | some n =>
    let cleared := (v.remove (.node id)).2
    match artist.drawNode? g n with
    | none => cleared
    | some look =>
      (n.children.filterMap g.node?).foldl
        (fun v child => v.addNode artist g child (some (.node id)))
        (cleared.add (.node n.id) ⟨look, n.parent.map .node⟩)

/-- Shows nodes anew. -/
def redrawNodes (v : View) (artist : NodeArtist) (g : Graph) (p : ReconcilePlan) : View :=
  p.nodes.keys.foldl (redrawNode artist g) v

/-- Shows an edge anew. -/
def redrawEdge (g : Graph) (v : View) (id : EdgeId) : View :=
  match g.edge? id with
  | none => v
  | some e => (v.remove (.edge id)).2.add (.edge e.id) ⟨NodeArtist.drawEdge g e, none⟩

/-- Shows edges anew. -/
def redrawEdges (v : View) (g : Graph) (p : ReconcilePlan) : View :=
  p.edges.keys.foldl (redrawEdge g) v

/-- Carries out a plan. -/
def apply (v : View) (artist : NodeArtist) (g : Graph) (p : ReconcilePlan) : View :=
  ((v.removeStale p).redrawNodes artist g p).redrawEdges g p

/-- Brings a view in line with a graph after changes, and returns the plan. -/
def reconcile (v : View) (artist : NodeArtist) (g : Graph) (changes : ChangeList) :
    Option (ReconcilePlan × View) :=
  (planChanges g changes v).map fun p => (p, v.apply artist g p)

/-- Everything that is drawn on its own, as changed: the nodes outside of stacks, and the edges. -/
def everything (g : Graph) : ChangeList :=
  let nodes := (g.nodes.values.filter fun n => n.parent.isNone).map fun n => ElementRef.node n.id
  let edges := g.edges.values.map fun e => ElementRef.edge e.id
  (nodes ++ edges).foldl ChangeList.mark .empty

/-- Shows a graph from scratch. -/
def rebuild (v : View) (artist : NodeArtist) (g : Graph) : Option (ReconcilePlan × View) :=
  v.reconcile artist g (everything g)

end View

end NodeScript
