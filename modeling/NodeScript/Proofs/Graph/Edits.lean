import NodeScript.Graph.Inference
import NodeScript.Proofs.Graph.Links
import NodeScript.Proofs.Graph.Supply

/-!
What edits of graphs do to nodes and edges, seen through their look-up. An edit of one node leaves
its links alone, a new node has an identity that was not there, and a node that is taken out takes
out what stands in it. So links stay in order.
-/

namespace NodeScript

/-- What links a node to others. -/
structure NodeLinks where
  id : NodeId
  parent : Option NodeId
  children : List NodeId
  isStack : Bool

def Node.links (n : Node) : NodeLinks := ⟨n.id, n.parent, n.children, n.kind.isStack⟩

/-- A node that holds another one more, at a place among those that it held. -/
def Node.insertChild (n : Node) (place : Nat) (child : NodeId) : Node :=
  { n with children := n.children.insertIdx place child }

namespace Graph

variable {g g' g'' : Graph} {id k stack : NodeId} {n holder : Node} {env : DefinitionEnv}
  {supply supply' : IdSupply}

theorem node?_addNode : (g.addNode n).node? k = if k = n.id then some n else g.node? k :=
  OrderedMap.get?_insert

theorem node?_modifyNode {change : Node → Node} :
    (g.modifyNode id change).node? k = if k = id then (g.node? id).map change else g.node? k :=
  OrderedMap.get?_modify

section Reworking

/-- One node has been edited, apart from its links, and perhaps edges have been dropped. -/
structure Reworked (id : NodeId) (g g' : Graph) : Prop where
  others : ∀ k, k ≠ id → g'.node? k = g.node? k
  links : (g'.node? id).map Node.links = (g.node? id).map Node.links
  edges : ∀ {k e}, g'.edge? k = some e → g.edge? k = some e

namespace Reworked

theorem refl (id : NodeId) (g : Graph) : Reworked id g g := ⟨fun _ _ => rfl, rfl, fun found => found⟩

theorem trans (first : Reworked id g g') (second : Reworked id g' g'') : Reworked id g g'' where
  others k other := (second.others k other).trans (first.others k other)
  links := second.links.trans first.links
  edges found := first.edges (second.edges found)

theorem links_eq (reworked : Reworked id g g') (k : NodeId) :
    (g'.node? k).map Node.links = (g.node? k).map Node.links := by
  by_cases same : k = id
  · rw [same, reworked.links]
  · rw [reworked.others k same]

theorem modify {change : Node → Node} (found : g.node? id = some n)
    (kept : (change n).links = n.links) : Reworked id g (g.modifyNode id change) where
  others k other := by rw [node?_modifyNode, if_neg other]
  links := by rw [node?_modifyNode, if_pos rfl, found, Option.map_some, Option.map_some, kept]; rfl
  edges found := found

end Reworked

/-- A node that is there after links were kept was there before, with the same links. -/
theorem exists_of_links {n' : Node} (same : (g'.node? k).map Node.links = (g.node? k).map Node.links)
    (found : g'.node? k = some n') : ∃ n, g.node? k = some n ∧ n.links = n'.links := by
  rw [found, Option.map_some, eq_comm, Option.map_eq_some_iff] at same
  exact same

/-- Links are in order again after an edit that kept them. -/
theorem Linked.of_links (linked : g.Linked)
    (same : ∀ k, (g'.node? k).map Node.links = (g.node? k).map Node.links)
    (edges : ∀ {k e}, g'.edge? k = some e → e.id = k) : g'.Linked where
  nodeFiled found := by
    obtain ⟨n, found, links⟩ := exists_of_links (same _) found
    exact (congrArg NodeLinks.id links).symm.trans (linked.nodeFiled found)
  edgeFiled := edges
  held found stands := by
    obtain ⟨n, found, links⟩ := exists_of_links (same _) found
    obtain ⟨h, foundS, stack, inside⟩ :=
      linked.held found ((congrArg NodeLinks.parent links).trans stands)
    obtain ⟨h', foundS', links'⟩ := exists_of_links (same _).symm foundS
    have children : h'.children = h.children := congrArg NodeLinks.children links'
    exact ⟨h', foundS', (congrArg NodeLinks.isStack links').trans stack, children ▸ inside⟩
  holds {s h c} found inside := by
    obtain ⟨h', found, links⟩ := exists_of_links (same _) found
    have children : h'.children = h.children := congrArg NodeLinks.children links
    obtain ⟨n, foundC, stands⟩ := linked.holds found (children ▸ inside)
    obtain ⟨n', foundC', links'⟩ := exists_of_links (same _).symm foundC
    exact ⟨n', foundC', (congrArg NodeLinks.parent links').trans stands⟩
  once {s h} found := by
    obtain ⟨h', found, links⟩ := exists_of_links (same _) found
    have children : h'.children = h.children := congrArg NodeLinks.children links
    exact children ▸ linked.once found
  flat found stack := by
    obtain ⟨h, found, links⟩ := exists_of_links (same _) found
    exact (congrArg NodeLinks.parent links).symm.trans
      (linked.flat found ((congrArg NodeLinks.isStack links).trans stack))

theorem Reworked.linked (reworked : Reworked id g g') (linked : g.Linked) : g'.Linked :=
  linked.of_links reworked.links_eq fun found => linked.edgeFiled (reworked.edges found)

/-- Defining the ports of a node edits the node, but neither its links nor its kind. -/
theorem defineNode_spec (run : g.defineNode env id supply = .ok (g', supply')) :
    supply.Extends supply' ∧ Reworked id g g' ∧
      (g'.node? id).map Node.kind = (g.node? id).map Node.kind := by
  unfold defineNode at run
  split at run
  · simp at run
  · rename_i n found
    split at run
    · simp at run
    · rename_i specs _
      simp only [Except.ok.injEq, Prod.mk.injEq] at run
      obtain ⟨rfl, rfl⟩ := run
      have self : ∀ n', OrderedMap.get? (g.nodes.insert id n') id = some n' := fun _ => by simp
      refine ⟨IdSupply.realizePorts_extends id specs n.ports supply,
        ⟨fun k other => OrderedMap.get?_insert_of_ne other, ?_, fun {k e} kept => ?_⟩, ?_⟩
      · rw [found]
        simp only [dropEdges, node?, self]
        rfl
      · rw [edge?, dropEdges, OrderedMap.get?_filter, Option.filter_eq_some_iff] at kept
        exact kept.1
      · rw [found]
        simp only [dropEdges, node?, self]
        rfl

theorem change_reworked {edit : Node → Node} (run : g.change id edit = .ok g')
    (kept : ∀ n, (edit n).links = n.links) : Reworked id g g' := by
  unfold change at run
  split at run
  · simp at run
  · rename_i n found
    obtain rfl := Except.ok.inj run
    exact .modify found (kept n)

theorem changeUnlocked_reworked {edit : Node → Node} (run : g.changeUnlocked id edit = .ok g')
    (kept : ∀ n, (edit n).links = n.links) : Reworked id g g' := by
  unfold changeUnlocked at run
  split at run
  · simp at run
  · rename_i n found
    split at run
    · simp at run
    · obtain rfl := Except.ok.inj run
      exact .modify found (kept n)

theorem setConstant_reworked {input : String} {value : Constant}
    (run : g.setConstant id input value = .ok g') : Reworked id g g' := by
  unfold setConstant at run
  split at run
  · simp at run
  · rename_i n found
    split at run
    · simp at run
    · obtain rfl := Except.ok.inj run
      exact .modify found rfl

/-- Inferring the types of a call edits the call. -/
theorem inferNode_spec (g : Graph) (env : DefinitionEnv) (id : NodeId) (supply : IdSupply) :
    supply.Extends (g.inferNode env id supply).2.2 ∧ Reworked id g (g.inferNode env id supply).2.1 := by
  have idle : supply.Extends supply ∧ Reworked id g g := ⟨.refl _, .refl _ _⟩
  unfold inferNode
  split
  · exact idle
  · rename_i n found
    split
    · rename_i decl call
      split
      · exact idle
      · split
        · exact idle
        · dsimp only
          generalize bind : g.modifyNode id _ = bound
          have rework : Reworked id g bound := by
            rw [← bind]
            exact .modify found (by simp [Node.links, call, NodeKind.isStack])
          split
          · exact ⟨.refl _, rework⟩
          · rename_i defined run
            obtain ⟨extended, again, _⟩ := defineNode_spec run
            split <;> exact ⟨extended, rework.trans again⟩
    · exact idle

/-- Making a call node call another method edits the node, which is a call still. -/
theorem setCallMethod_spec {method : MethodRef}
    (run : g.setCallMethod env id method supply = (.ok (), g', supply')) :
    supply.Extends supply' ∧ Reworked id g g' ∧
      (g'.node? id).any (fun n => n.kind.call?.isSome) = true := by
  unfold setCallMethod at run
  split at run
  · simp at run
  · rename_i n found
    split at run
    · rename_i decl call
      split at run
      · simp at run
      · dsimp only at run
        split at run
        · rename_i defined
          simp only [Prod.mk.injEq, true_and] at run
          obtain ⟨rfl, rfl⟩ := run
          obtain ⟨extended, again, kind⟩ := defineNode_spec defined
          refine ⟨extended, (Reworked.modify found ?_).trans again, ?_⟩
          · simp [Node.links, call, NodeKind.isStack]
          · rw [node?_modifyNode, if_pos rfl, found] at kind
            obtain ⟨n', found', kind'⟩ := Option.map_eq_some_iff.mp kind
            simp [found', kind', NodeKind.call?]
        · simp at run
    · simp at run

end Reworking

section Growing

/-- A node that stands in nothing and holds nothing may come to a graph. -/
theorem Linked.addNode (linked : g.Linked) (fresh : g.node? n.id = none) (free : n.parent = none)
    (bare : n.children = []) : (g.addNode n).Linked := by
  have kept : ∀ {k m}, g.node? k = some m → (g.addNode n).node? k = some m := by
    intro k m found
    have other : k ≠ n.id := by
      rintro rfl
      simp [fresh] at found
    rw [node?_addNode, if_neg other, found]
  have cases : ∀ {k m}, (g.addNode n).node? k = some m → (k = n.id ∧ m = n) ∨ g.node? k = some m := by
    intro k m found
    rw [node?_addNode] at found
    split at found
    · rename_i same
      exact .inl ⟨same, (Option.some.inj found).symm⟩
    · exact .inr found
  constructor
  · intro k m found
    rcases cases found with ⟨rfl, rfl⟩ | found
    · rfl
    · exact linked.nodeFiled found
  · exact linked.edgeFiled
  · intro k m s found stands
    rcases cases found with ⟨rfl, rfl⟩ | found
    · simp [free] at stands
    · obtain ⟨h, foundS, stack, inside⟩ := linked.held found stands
      exact ⟨h, kept foundS, stack, inside⟩
  · intro s h c found inside
    rcases cases found with ⟨rfl, rfl⟩ | found
    · simp [bare] at inside
    · obtain ⟨m, foundC, stands⟩ := linked.holds found inside
      exact ⟨m, kept foundC, stands⟩
  · intro s h found
    rcases cases found with ⟨rfl, rfl⟩ | found
    · simp [bare]
    · exact linked.once found
  · intro s h found stack
    rcases cases found with ⟨rfl, rfl⟩ | found
    · exact free
    · exact linked.flat found stack

/-- A graph to which a node has come, at a place in a stack. -/
def stackNode (g : Graph) (n : Node) (stack : NodeId) (place : Nat) : Graph :=
  (g.addNode n).modifyNode stack fun h => h.insertChild place n.id

section Stacking

variable {place : Nat} {m : Node} (fresh : g.node? n.id = none) (found : g.node? stack = some holder)

include fresh found

theorem stack_ne : stack ≠ n.id := by
  rintro rfl
  simp [fresh] at found

theorem node?_stackNode : (g.stackNode n stack place).node? k =
    if k = stack then some (holder.insertChild place n.id)
    else if k = n.id then some n else g.node? k := by
  simp only [stackNode, node?_modifyNode, node?_addNode, if_neg (stack_ne fresh found), found,
    Option.map_some]

theorem nodes_stackNode : (g.stackNode n stack place).nodes =
    (g.nodes.insert n.id n).insert stack (holder.insertChild place n.id) :=
  OrderedMap.modify_of_get? ((OrderedMap.get?_insert_of_ne (stack_ne fresh found)).trans found)

theorem keys_stackNode : (g.stackNode n stack place).nodes.keys = g.nodes.keys ++ [n.id] := by
  have added : (g.nodes.insert n.id n).keys = g.nodes.keys ++ [n.id] :=
    OrderedMap.keys_insert.trans (if_neg (OrderedMap.get?_eq_none_iff.mp fresh))
  have inside : stack ∈ (g.nodes.insert n.id n).keys := by
    rw [added]
    exact List.mem_append_left _ (OrderedMap.mem_keys_of_get? found)
  rw [nodes_stackNode fresh found, OrderedMap.keys_insert, if_pos inside, added]

theorem stackNode_cases (foundK : (g.stackNode n stack place).node? k = some m) :
    (k = stack ∧ m = holder.insertChild place n.id) ∨ (k = n.id ∧ m = n) ∨
      (k ≠ stack ∧ g.node? k = some m) := by
  rw [node?_stackNode fresh found] at foundK
  split at foundK
  · rename_i same
    exact .inl ⟨same, (Option.some.inj foundK).symm⟩
  · rename_i away
    split at foundK
    · rename_i same
      exact .inr (.inl ⟨same, (Option.some.inj foundK).symm⟩)
    · exact .inr (.inr ⟨away, foundK⟩)

/-- What was there stays, where it stood and with what it held. -/
theorem stackNode_kept (within : place ≤ holder.children.length) (foundK : g.node? k = some m) :
    ∃ m', (g.stackNode n stack place).node? k = some m' ∧ m'.parent = m.parent ∧ m'.kind = m.kind ∧
      ∀ c ∈ m.children, c ∈ m'.children := by
  rw [node?_stackNode fresh found]
  by_cases same : k = stack
  · subst same
    obtain rfl := Option.some.inj (foundK.symm.trans found)
    refine ⟨_, if_pos rfl, rfl, rfl, fun c inside => ?_⟩
    exact (List.perm_insertIdx _ _ within).mem_iff.mpr (.tail _ inside)
  · have away : k ≠ n.id := by
      rintro rfl
      simp [fresh] at foundK
    exact ⟨m, by rw [if_neg same, if_neg away, foundK], rfl, rfl, fun _ inside => inside⟩

/-- A node that holds nothing and is no stack may come to a stack. -/
theorem Linked.stackNode (linked : g.Linked) (isStack : holder.kind.isStack = true)
    (within : place ≤ holder.children.length) (stands : n.parent = some stack)
    (bare : n.children = []) (single : n.kind.isStack = false) :
    (g.stackNode n stack place).Linked := by
  have perm : (holder.insertChild place n.id).children.Perm (n.id :: holder.children) :=
    List.perm_insertIdx _ _ within
  constructor
  · intro k m foundK
    rcases stackNode_cases fresh found foundK with ⟨rfl, rfl⟩ | ⟨rfl, rfl⟩ | ⟨-, foundK⟩
    · exact (linked.nodeFiled found :)
    · rfl
    · exact linked.nodeFiled foundK
  · exact linked.edgeFiled
  · intro k m s foundK inside
    have old : ∀ {m'}, g.node? k = some m' → m'.parent = some s →
        ∃ h, (g.stackNode n stack place).node? s = some h ∧ h.kind.isStack = true ∧
          k ∈ h.children := by
      intro m' foundOld insideOld
      obtain ⟨h, foundS, stackS, member⟩ := linked.held foundOld insideOld
      obtain ⟨h', foundS', _, kind, children⟩ := stackNode_kept fresh found within foundS
      exact ⟨h', foundS', kind ▸ stackS, children _ member⟩
    rcases stackNode_cases fresh found foundK with ⟨rfl, rfl⟩ | ⟨rfl, rfl⟩ | ⟨-, foundK⟩
    · exact old found inside
    · obtain rfl := Option.some.inj (stands.symm.trans inside)
      have foundS : (g.stackNode m stack place).node? stack = some (holder.insertChild place m.id) := by
        rw [node?_stackNode fresh found, if_pos rfl]
      exact ⟨_, foundS, isStack, perm.mem_iff.mpr (.head _)⟩
    · exact old foundK inside
  · intro s h c foundS inside
    have old : ∀ {h'}, g.node? s = some h' → c ∈ h'.children →
        ∃ m, (g.stackNode n stack place).node? c = some m ∧ m.parent = some s := by
      intro h' foundOld insideOld
      obtain ⟨m, foundC, parent⟩ := linked.holds foundOld insideOld
      obtain ⟨m', foundC', same, _⟩ := stackNode_kept fresh found within foundC
      exact ⟨m', foundC', same.trans parent⟩
    rcases stackNode_cases fresh found foundS with ⟨rfl, rfl⟩ | ⟨rfl, rfl⟩ | ⟨-, foundS⟩
    · rcases List.mem_cons.mp (perm.mem_iff.mp inside) with rfl | inside
      · refine ⟨n, ?_, stands⟩
        rw [node?_stackNode fresh found, if_neg (stack_ne fresh found).symm, if_pos rfl]
      · exact old found inside
    · simp [bare] at inside
    · exact old foundS inside
  · intro s h foundS
    rcases stackNode_cases fresh found foundS with ⟨rfl, rfl⟩ | ⟨rfl, rfl⟩ | ⟨-, foundS⟩
    · refine perm.nodup_iff.mpr (List.nodup_cons.mpr ⟨fun inside => ?_, linked.once found⟩)
      obtain ⟨m, foundN, _⟩ := linked.holds found inside
      simp [fresh] at foundN
    · simp [bare]
    · exact linked.once foundS
  · intro s h foundS stackS
    rcases stackNode_cases fresh found foundS with ⟨rfl, rfl⟩ | ⟨rfl, rfl⟩ | ⟨-, foundS⟩
    · exact (linked.flat found isStack :)
    · simp [single] at stackS
    · exact linked.flat foundS stackS

end Stacking

/-- Stacks do not stand in stacks. -/
theorem isStack_of_stackable {kind : NodeKind} (stackable : env.stackable kind = true) :
    kind.isStack = false := by
  cases kind <;> simp_all [DefinitionEnv.stackable, NodeKind.isStackable, NodeKind.isStack]

/-- A spawned node comes to the graph under a fresh identity, and then its ports are defined. -/
theorem spawn_defined {kind : NodeKind} {position : Position}
    (run : g.spawn env kind position supply = (.ok id, g', supply')) :
    id = ⟨supply.fresh.1⟩ ∧
      (g.addNode { Node.new id kind with position }).defineNode env id supply.fresh.2 =
        .ok (g', supply') := by
  unfold spawn at run
  split at run
  · dsimp only at run
    split at run
    · rename_i defined
      simp only [Prod.mk.injEq, Except.ok.injEq] at run
      obtain ⟨rfl, rfl, rfl⟩ := run
      exact ⟨rfl, defined⟩
    · simp at run
  · simp at run

theorem spawn_spec {kind : NodeKind} {position : Position}
    (run : g.spawn env kind position supply = (.ok id, g', supply')) :
    id = ⟨supply.fresh.1⟩ ∧ supply.fresh.2.Extends supply' ∧
      ∃ n, n.id = id ∧ n.parent = none ∧ n.children = [] ∧ Reworked id (g.addNode n) g' := by
  obtain ⟨named, defined⟩ := spawn_defined run
  obtain ⟨extended, rework, _⟩ := defineNode_spec defined
  exact ⟨named, extended, _, rfl, rfl, rfl, rework⟩

/-- What pushing does: it is refused, or the new node is put at its place and its ports are defined;
if they cannot be, the node is removed. -/
theorem push_cases (g : Graph) (env : DefinitionEnv) (stack : NodeId) (index : Option Nat)
    (kind : NodeKind) (supply : IdSupply) :
    (∃ e, g.push env stack index kind supply = (.error e, g, supply)) ∨
    ∃ holder added, g.node? stack = some holder ∧ holder.kind.isStack = true ∧
      kind.isStack = false ∧
      added = g.stackNode { Node.new ⟨supply.fresh.1⟩ kind with parent := some stack } stack
        (min (index.getD holder.children.length) holder.children.length) ∧
      g.push env stack index kind supply =
        match added.defineNode env ⟨supply.fresh.1⟩ supply.fresh.2 with
        | .ok (g', supply') => (.ok ⟨supply.fresh.1⟩, g', supply')
        | .error e => (.error (.definition e), (added.remove ⟨supply.fresh.1⟩).2, supply.fresh.2) := by
  unfold push
  split
  · exact .inl ⟨_, rfl⟩
  · rename_i holder found
    split
    · exact .inl ⟨_, rfl⟩
    · rename_i isStack
      split
      · exact .inl ⟨_, rfl⟩
      · rename_i stackable
        split
        · exact .inl ⟨_, rfl⟩
        · exact .inr ⟨holder, _, found, by simpa using isStack,
            isStack_of_stackable (by simpa using stackable), rfl, rfl⟩

/-- A pushed node comes to a place in a stack under a fresh identity, and then its ports are defined.
-/
theorem push_defined {kind : NodeKind} {index : Option Nat}
    (run : g.push env stack index kind supply = (.ok id, g', supply')) :
    id = ⟨supply.fresh.1⟩ ∧ kind.isStack = false ∧
      ∃ holder place, g.node? stack = some holder ∧ holder.kind.isStack = true ∧
        place = min (index.getD holder.children.length) holder.children.length ∧
        (g.stackNode { Node.new id kind with parent := some stack } stack place).defineNode env id
          supply.fresh.2 = .ok (g', supply') := by
  obtain ⟨e, refused⟩ | ⟨holder, added, found, isStack, single, rfl, pushed⟩ :=
    push_cases g env stack index kind supply
  · rw [refused] at run
    cases (Prod.mk.inj run).1
  · rw [pushed] at run
    split at run
    · rename_i defined
      simp only [Prod.mk.injEq, Except.ok.injEq] at run
      obtain ⟨rfl, rfl, rfl⟩ := run
      exact ⟨rfl, single, holder, _, found, isStack, rfl, defined⟩
    · cases (Prod.mk.inj run).1

theorem push_spec {kind : NodeKind} {index : Option Nat}
    (run : g.push env stack index kind supply = (.ok id, g', supply')) :
    id = ⟨supply.fresh.1⟩ ∧ supply.fresh.2.Extends supply' ∧
      ∃ holder n place, g.node? stack = some holder ∧ holder.kind.isStack = true ∧
        place ≤ holder.children.length ∧ n.id = id ∧ n.parent = some stack ∧ n.children = [] ∧
        n.kind.isStack = false ∧ Reworked id (g.stackNode n stack place) g' := by
  obtain ⟨named, single, holder, place, found, isStack, rfl, defined⟩ := push_defined run
  obtain ⟨extended, rework, _⟩ := defineNode_spec defined
  exact ⟨named, extended, holder, _, _, found, isStack, Nat.min_le_right _ _, rfl, rfl, rfl, single,
    rework⟩

/-- A connection is a new edge under a fresh identity. -/
theorem connect_made {source target : NodeId} {output input : PortId} {edge : EdgeId}
    (run : g.connect source output target input supply = .ok (edge, g', supply')) :
    edge = ⟨supply.fresh.1⟩ ∧ supply' = supply.fresh.2 ∧
      ∃ e, e.id = edge ∧ g' = { g with edges := g.edges.insert edge e } := by
  unfold connect at run
  split at run
  · simp at run
  · simp at run
  · split at run
    · simp at run
    · simp at run
    · split at run
      · simp at run
      · simp only [Except.ok.injEq, Prod.mk.injEq] at run
        obtain ⟨rfl, rfl, rfl⟩ := run
        exact ⟨rfl, rfl, _, rfl, rfl⟩

theorem connect_spec {source target : NodeId} {output input : PortId} {edge : EdgeId}
    (run : g.connect source output target input supply = .ok (edge, g', supply')) :
    edge = ⟨supply.fresh.1⟩ ∧ supply' = supply.fresh.2 ∧
      ∃ e, e.id = edge ∧ (∀ k, g'.node? k = g.node? k) ∧
        ∀ k, g'.edge? k = if k = edge then some e else g.edge? k := by
  obtain ⟨named, taken, e, filed, rfl⟩ := connect_made run
  exact ⟨named, taken, e, filed, fun _ => rfl, fun _ => OrderedMap.get?_insert⟩

/-- A connection by names is one of the ports that have these names. -/
theorem connectByName_connect {source target : NodeId} {output input : String} {edge : EdgeId}
    (run : g.connectByName source output target input supply = .ok (edge, g', supply')) :
    ∃ outputPort inputPort,
      g.connect source outputPort target inputPort supply = .ok (edge, g', supply') := by
  unfold connectByName at run
  split at run
  · simp at run
  · split at run
    · simp at run
    · split at run
      · simp at run
      · split at run
        · simp at run
        · exact ⟨_, _, run⟩

theorem connectByName_spec {source target : NodeId} {output input : String} {edge : EdgeId}
    (run : g.connectByName source output target input supply = .ok (edge, g', supply')) :
    edge = ⟨supply.fresh.1⟩ ∧ supply' = supply.fresh.2 ∧
      ∃ e, e.id = edge ∧ (∀ k, g'.node? k = g.node? k) ∧
        ∀ k, g'.edge? k = if k = edge then some e else g.edge? k := by
  obtain ⟨_, _, connected⟩ := connectByName_connect run
  exact connect_spec connected

end Growing

end Graph

end NodeScript
