import NodeScript.Proofs.Editor.Views
import NodeScript.Proofs.Graph.Links

/-!
What a view is to show of a graph, which part of that changes put in doubt, and the plan that covers
this part.
-/

namespace NodeScript

/-- Nodes look the same in whatever graph they are. -/
def NodeArtist.Plain (a : NodeArtist) : Prop := ∀ g g' n, a.drawNode? g n = a.drawNode? g' n

namespace Graph

variable {g g' : Graph} {a : NodeArtist} {c : ChangeList} {e : ElementRef} {id s : NodeId}

/-- The element that an element of a graph is shown in. -/
def parentOf (g : Graph) : ElementRef → Option ElementRef
  | .node id => (g.stackOf? id).map .node
  | .edge _ => none

/-- What is shown of an element of a graph, if it can be drawn. -/
def pictured (g : Graph) (a : NodeArtist) (e : ElementRef) : Option Visual :=
  match e with
  | .node id => (g.node? id).bind fun n => (a.drawNode? g n).map fun look => ⟨look, g.parentOf e⟩
  | .edge id => (g.edge? id).map fun edge => ⟨NodeArtist.drawEdge g edge, g.parentOf e⟩

/-- What is shown in a stack, in the order of the stack. -/
def picturedIn (g : Graph) (a : NodeArtist) (s : NodeId) : List ElementRef :=
  ((g.children s).map ElementRef.node).filter fun e => (g.pictured a e).isSome

theorem existsIn_of_pictured {visual : Visual} (drawn : g.pictured a e = some visual) :
    e.existsIn g = true ∧ visual.parent = g.parentOf e := by
  cases e with
  | node id =>
    obtain ⟨n, found, drawn⟩ := Option.bind_eq_some_iff.mp drawn
    obtain ⟨look, -, rfl⟩ := Option.map_eq_some_iff.mp drawn
    exact ⟨by simp [ElementRef.existsIn, found], rfl⟩
  | edge id =>
    obtain ⟨edge, found, rfl⟩ := Option.map_eq_some_iff.mp drawn
    exact ⟨by simp [ElementRef.existsIn, found], rfl⟩

theorem pictured_eq_none (gone : e.existsIn g = false) : g.pictured a e = none := by
  cases drawn : g.pictured a e with
  | none => rfl
  | some visual => exact absurd (existsIn_of_pictured drawn).1 (by simp [gone])

/-- What is shown of a node depends on the node alone. -/
theorem pictured_congr (plain : a.Plain) (same : g.node? id = g'.node? id) :
    g.pictured a (.node id) = g'.pictured a (.node id) := by
  have stack : g.stackOf? id = g'.stackOf? id := by rw [stackOf?, stackOf?, same]
  simp only [pictured, parentOf, same, stack, plain g g']

/-- What something is shown in is a stack, which is shown in nothing. -/
theorem Linked.exists_of_parentOf (linked : g.Linked) {p : ElementRef}
    (inside : g.parentOf e = some p) : ∃ s, p = .node s ∧ ∃ h, g.node? s = some h ∧
      h.kind.isStack = true ∧ g.parentOf p = none := by
  cases e with
  | node id =>
    obtain ⟨s, stands, rfl⟩ := Option.map_eq_some_iff.mp inside
    obtain ⟨n, found, stands'⟩ := exists_of_stackOf? stands
    obtain ⟨h, foundS, stack, _⟩ := linked.held found stands'
    exact ⟨s, rfl, h, foundS, stack, by simp [parentOf, linked.stackOf?_stack stands]⟩
  | edge id => simp [parentOf] at inside

/-- Whether a change touches what is drawn together with a node. -/
def NodeTouched (g : Graph) (c : ChangeList) (id : NodeId) : Prop :=
  ∃ m n, .node m ∈ c.changed.keys ∧ g.node? m = some n ∧ g.root m = g.root id

theorem Linked.exists_of_nodeTouched (linked : g.Linked) (touched : g.NodeTouched c id) :
    ∃ n, g.node? id = some n := by
  obtain ⟨m, n, -, found, same⟩ := touched
  cases stands : g.stackOf? id with
  | none =>
    obtain ⟨h, foundRoot⟩ := linked.isSome_root found
    rw [same, root_of_free stands] at foundRoot
    exact ⟨h, foundRoot⟩
  | some s =>
    obtain ⟨n, found, -⟩ := exists_of_stackOf? stands
    exact ⟨n, found⟩

/-- Whether a change touches what is shown of an element: for an edge also a change at its ends. -/
def Touched (g : Graph) (c : ChangeList) : ElementRef → Prop
  | .node id => g.NodeTouched c id
  | .edge id => .edge id ∈ c.changed.keys ∨ ∃ edge, g.edge? id = some edge ∧
    (g.NodeTouched c edge.output.node ∨ g.NodeTouched c edge.input.node)

end Graph

namespace ReconcilePlan

variable {g : Graph} {p : ReconcilePlan} {id r : NodeId} {edge : EdgeId}

theorem mem_addEdges {edges : List Edge} :
    edge ∈ (p.addEdges edges).edges.keys ↔ edge ∈ p.edges.keys ∨ ∃ e ∈ edges, e.id = edge := by
  unfold addEdges
  dsimp only
  generalize p.edges = start
  induction edges generalizing start with
  | nil => simp
  | cons e rest ih =>
    rw [List.foldl_cons, ih, OrderedMap.mem_keys_insert, List.exists_mem_cons_iff,
      or_comm (a := edge = e.id), or_assoc, eq_comm (a := edge)]

/-- The node that is drawn anew because of a change. -/
def Redraws (g : Graph) (element : ElementRef) (r : NodeId) : Prop :=
  ∃ m n, element = .node m ∧ g.node? m = some n ∧ g.root m = r

/-- The edge that is drawn anew because of its own change. -/
def RedrawsEdge (g : Graph) (element : ElementRef) (id : EdgeId) : Prop :=
  element = .edge id ∧ (g.edge? id).isSome = true

theorem addChange_spec (linked : g.Linked) (p : ReconcilePlan) (element : ElementRef) :
    ∃ next, addChange g p element = some next ∧
      (∀ r, r ∈ next.nodes.keys ↔ r ∈ p.nodes.keys ∨ Redraws g element r) ∧
      (∀ id, id ∈ next.edges.keys ↔ id ∈ p.edges.keys ∨ RedrawsEdge g element id) := by
  cases element with
  | node m =>
    cases found : g.node? m with
    | none => exact ⟨p, by simp [addChange, found], by simp [Redraws, found], by simp [RedrawsEdge]⟩
    | some n =>
      refine ⟨{ p with nodes := p.nodes.insert (g.root m) () }, ?_, fun r => ?_, ?_⟩
      · simp [addChange, found, linked.outermostStack?_eq]
      · rw [OrderedMap.mem_keys_insert, or_comm]
        simp [Redraws, found, eq_comm]
      · simp [RedrawsEdge]
  | edge id =>
    cases found : g.edge? id with
    | none => exact ⟨p, by simp [addChange, found], by simp [Redraws], by simp [RedrawsEdge, found]⟩
    | some e =>
      refine ⟨{ p with edges := p.edges.insert id () }, ?_, ?_, fun id' => ?_⟩
      · simp [addChange, found]
      · simp [Redraws]
      · rw [OrderedMap.mem_keys_insert, or_comm]
        refine or_congr_right ⟨?_, fun redraws => (ElementRef.edge.inj redraws.1).symm⟩
        rintro rfl
        exact ⟨rfl, by simp [found]⟩

/-- The marks of a plan: the node that each changed node is drawn with, and the changed edges. -/
theorem marks (linked : g.Linked) (changed : List ElementRef) (p : ReconcilePlan) :
    ∃ marked, changed.foldlM (addChange g) p = some marked ∧
      (∀ r, r ∈ marked.nodes.keys ↔ r ∈ p.nodes.keys ∨ ∃ x ∈ changed, Redraws g x r) ∧
      (∀ id, id ∈ marked.edges.keys ↔ id ∈ p.edges.keys ∨ ∃ x ∈ changed, RedrawsEdge g x id) := by
  induction changed generalizing p with
  | nil => exact ⟨p, rfl, by simp, by simp⟩
  | cons element rest ih =>
    obtain ⟨next, run, nodes, edges⟩ := addChange_spec linked p element
    obtain ⟨marked, runRest, nodesRest, edgesRest⟩ := ih next
    refine ⟨marked, ?_, fun r => ?_, fun id => ?_⟩
    · rw [List.foldlM_cons, run]
      exact runRest
    · rw [nodesRest, nodes, List.exists_mem_cons_iff, or_assoc]
    · rw [edgesRest, edges, List.exists_mem_cons_iff, or_assoc]

theorem mem_nodes_absorb {children : List NodeId} :
    r ∈ (children.foldl (absorbChild g) p).nodes.keys ↔ r ∈ p.nodes.keys ∧ r ∉ children := by
  induction children generalizing p with
  | nil => simp
  | cons c rest ih =>
    rw [List.foldl_cons, ih, List.mem_cons, not_or]
    simp only [absorbChild, addEdges, OrderedMap.mem_keys_erase]
    rw [and_comm (a := r ≠ c), and_assoc]

theorem mem_edges_absorb {children : List NodeId} :
    edge ∈ (children.foldl (absorbChild g) p).edges.keys ↔
      edge ∈ p.edges.keys ∨ ∃ c ∈ children, ∃ e ∈ g.edgesOf c, e.id = edge := by
  induction children generalizing p with
  | nil => simp
  | cons c rest ih =>
    rw [List.foldl_cons, ih, List.exists_mem_cons_iff, absorbChild, mem_addEdges, or_assoc]

/-- Some edge with an identity is among the edges of a node. -/
theorem exists_mem_edgesOf (linked : g.Linked) {x : NodeId} :
    (∃ e ∈ g.edgesOf x, e.id = edge) ↔ ∃ e, g.edge? edge = some e ∧ e.involvesNode x = true := by
  constructor
  · rintro ⟨e, member, rfl⟩
    obtain ⟨inside, involved⟩ := List.mem_filter.mp member
    obtain ⟨key, entry⟩ := OrderedMap.mem_values_iff.mp inside
    have found : g.edge? key = some e := OrderedMap.get?_eq_some_iff.mpr entry
    exact ⟨e, by rw [linked.edgeFiled found, found], involved⟩
  · rintro ⟨e, found, involved⟩
    exact ⟨e, List.mem_filter.mpr ⟨OrderedMap.mem_values_of_get? found, involved⟩,
      linked.edgeFiled found⟩

/-- What is left to the stacks that are drawn anew is all that stands in what is drawn anew. -/
theorem mem_absorbed (linked : g.Linked) {x : NodeId} :
    x ∈ (p.nodes.keys.filter fun id => (g.node? id).any fun n => n.kind.isStack).flatMap g.children ↔
      ∃ s ∈ p.nodes.keys, x ∈ g.children s := by
  simp only [List.mem_flatMap, List.mem_filter]
  constructor
  · rintro ⟨s, ⟨member, _⟩, inside⟩
    exact ⟨s, member, inside⟩
  · rintro ⟨s, member, inside⟩
    obtain ⟨n, found, stands⟩ := Graph.exists_of_stackOf? (linked.mem_children_iff.mp inside)
    obtain ⟨h, foundS, stack, _⟩ := linked.held found stands
    exact ⟨s, ⟨member, by simp [foundS, stack]⟩, inside⟩

/-- What stands in a stack is no root, so nothing that is to be drawn is left to a stack. -/
theorem mem_nodes_absorbChildren (linked : g.Linked)
    (roots : ∀ r ∈ p.nodes.keys, g.stackOf? r = none) :
    r ∈ (p.absorbChildren g).nodes.keys ↔ r ∈ p.nodes.keys := by
  rw [absorbChildren, mem_nodes_absorb, mem_absorbed linked]
  refine and_iff_left_of_imp fun member => ?_
  rintro ⟨s, -, child⟩
  have stands := linked.mem_children_iff.mp child
  rw [roots r member] at stands
  simp at stands

theorem mem_edges_absorbChildren (linked : g.Linked) :
    edge ∈ (p.absorbChildren g).edges.keys ↔ edge ∈ p.edges.keys ∨
      ∃ x, (∃ s ∈ p.nodes.keys, x ∈ g.children s) ∧ ∃ e ∈ g.edgesOf x, e.id = edge := by
  rw [absorbChildren, mem_edges_absorb]
  simp only [mem_absorbed linked]

end ReconcilePlan

open ReconcilePlan

/-- A plan for changes is always made. It draws what each changed node is drawn with, and the edges
that have changed or end at something that is drawn. -/
theorem planChanges_members {g : Graph} (linked : g.Linked) (c : ChangeList) (v : View) :
    ∃ p, planChanges g c v = some p ∧ p.removals = v.removals g ∧
      (∀ r, r ∈ p.nodes.keys ↔
        ∃ m n, .node m ∈ c.changed.keys ∧ g.node? m = some n ∧ g.root m = r) ∧
      (∀ id, id ∈ p.edges.keys ↔ ∃ e, g.edge? id = some e ∧ (.edge id ∈ c.changed.keys ∨
        ∃ x, e.involvesNode x = true ∧
          (x ∈ p.nodes.keys ∨ ∃ s ∈ p.nodes.keys, x ∈ g.children s))) := by
  obtain ⟨marked, run, nodes, edges⟩ := marks linked c.changed.keys .empty
  have roots : ∀ r, r ∈ marked.nodes.keys ↔
      ∃ m n, .node m ∈ c.changed.keys ∧ g.node? m = some n ∧ g.root m = r := by
    intro r
    rw [nodes]
    simp only [ReconcilePlan.empty, OrderedMap.keys, OrderedMap.entries_empty, List.map_nil,
      List.not_mem_nil, false_or, Redraws]
    constructor
    · rintro ⟨_, changed, m, n, rfl, found, root⟩
      exact ⟨m, n, changed, found, root⟩
    · rintro ⟨m, n, changed, found, root⟩
      exact ⟨_, changed, m, n, rfl, found, root⟩
  have own : ∀ id, id ∈ marked.edges.keys ↔
      .edge id ∈ c.changed.keys ∧ (g.edge? id).isSome = true := by
    intro id
    rw [edges]
    simp [ReconcilePlan.empty, OrderedMap.keys, OrderedMap.entries_empty, RedrawsEdge]
  have free : ∀ r ∈ marked.nodes.keys, g.stackOf? r = none := by
    intro r member
    obtain ⟨m, n, -, -, rfl⟩ := (roots r).mp member
    exact linked.stackOf?_root m
  have kept : ∀ r, r ∈ (marked.absorbChildren g).nodes.keys ↔ r ∈ marked.nodes.keys :=
    fun r => mem_nodes_absorbChildren linked free
  refine ⟨{ (marked.absorbChildren g).addTouchedEdges g with removals := v.removals g }, ?_, rfl,
    fun r => (kept r).trans (roots r), fun id => ?_⟩
  · simp [planChanges, run]
  have touched : id ∈ ((marked.absorbChildren g).addTouchedEdges g).edges.keys ↔
      (id ∈ marked.edges.keys ∨
        ∃ x, (∃ s ∈ marked.nodes.keys, x ∈ g.children s) ∧ ∃ e ∈ g.edgesOf x, e.id = id) ∨
      ∃ x ∈ marked.nodes.keys, ∃ e ∈ g.edgesOf x, e.id = id := by
    rw [addTouchedEdges, mem_addEdges, mem_edges_absorbChildren linked]
    simp only [List.mem_flatMap, kept, ← exists_and_right, and_assoc]
    grind
  have same : ∀ r, r ∈ ((marked.absorbChildren g).addTouchedEdges g).nodes.keys ↔
      r ∈ marked.nodes.keys := kept
  simp only [same]
  rw [touched, own]
  simp only [exists_mem_edgesOf linked]
  constructor
  · rintro ((⟨changed, living⟩ | ⟨x, inside, e, found, involved⟩) | ⟨x, drawn, e, found, involved⟩)
    · obtain ⟨e, found⟩ := Option.isSome_iff_exists.mp living
      exact ⟨e, found, .inl changed⟩
    · exact ⟨e, found, .inr ⟨x, involved, .inr inside⟩⟩
    · exact ⟨e, found, .inr ⟨x, involved, .inl drawn⟩⟩
  · rintro ⟨e, found, changed | ⟨x, involved, drawn | inside⟩⟩
    · exact .inl (.inl ⟨changed, by simp [found]⟩)
    · exact .inr ⟨x, drawn, e, found, involved⟩
    · exact .inl (.inr ⟨x, inside, e, found, involved⟩)

/-- A plan for changes is always made. It draws nodes that stand in no stack, and covers whatever
the changes touch. -/
theorem planChanges_spec {g : Graph} (linked : g.Linked) (c : ChangeList) (v : View) :
    ∃ p, planChanges g c v = some p ∧ p.removals = v.removals g ∧
      (∀ r ∈ p.nodes.keys, ∃ n, g.node? r = some n ∧ g.stackOf? r = none) ∧
      (∀ id, g.NodeTouched c id → g.root id ∈ p.nodes.keys) ∧
      (∀ id, g.Touched c (.edge id) → (g.edge? id).isSome = true → id ∈ p.edges.keys) := by
  obtain ⟨p, planned, removals, nodes, edges⟩ := planChanges_members linked c v
  refine ⟨p, planned, removals, fun r member => ?_, fun id touched => ?_, fun id touched living => ?_⟩
  · obtain ⟨m, n, -, found, rfl⟩ := (nodes r).mp member
    obtain ⟨h, foundRoot⟩ := linked.isSome_root found
    exact ⟨h, foundRoot, linked.stackOf?_root m⟩
  · obtain ⟨m, n, changed, found, same⟩ := touched
    exact (nodes _).mpr ⟨m, n, changed, found, same⟩
  obtain ⟨edge, found⟩ := Option.isSome_iff_exists.mp living
  refine (edges id).mpr ⟨edge, found, ?_⟩
  rcases touched with changed | ⟨edge', found', ends⟩
  · exact .inl changed
  obtain rfl := Option.some.inj (found'.symm.trans found)
  obtain ⟨x, involved, m, n, changed, foundM, same⟩ :
      ∃ x, edge'.involvesNode x = true ∧ g.NodeTouched c x := by
    rcases ends with touch | touch
    · exact ⟨_, by simp [Edge.involvesNode], touch⟩
    · exact ⟨_, by simp [Edge.involvesNode], touch⟩
  have drawn : g.root x ∈ p.nodes.keys := (nodes _).mpr ⟨m, n, changed, foundM, same⟩
  refine .inr ⟨x, involved, ?_⟩
  cases stands : g.stackOf? x with
  | none => exact .inl (Graph.root_of_free stands ▸ drawn)
  | some s =>
    exact .inr ⟨s, Graph.root_of_stackOf? stands ▸ drawn, linked.mem_children_iff.mpr stands⟩

end NodeScript
