import NodeScript.Graph.Edit
import NodeScript.Proofs.Graph.Links

/-!
Taking a node out of a graph takes out what stands in it, the edges at either, and its place in its
stack, and nothing else.
-/

namespace NodeScript

/-- A node that no longer holds another one. -/
def Node.dropChild (n : Node) (child : NodeId) : Node :=
  { n with children := n.children.filter (· ≠ child) }

namespace Graph

variable {g g' : Graph} {id k : NodeId} {n : Node}

/-- A node is gone, with what stood in it and the edges at either. -/
structure Without (id : NodeId) (n : Node) (g g' : Graph) : Prop where
  nodes : ∀ k, g'.node? k = if k ∈ id :: n.children then none else
    if n.parent = some k then (g.node? k).map (·.dropChild id) else g.node? k
  edges : ∀ k, g'.edge? k = (g.edge? k).filter fun e => !(id :: n.children).any e.involvesNode

theorem node?_erase : Graph.node? { g with nodes := g.nodes.erase id } k =
    if k = id then none else g.node? k := OrderedMap.get?_erase

theorem node?_erase_eq_some_iff : Graph.node? { g with nodes := g.nodes.erase id } k = some n ↔
    k ≠ id ∧ g.node? k = some n := by
  rw [node?_erase]
  split <;> simp_all

theorem node?_forget : (g.forget n id).node? k =
    if n.parent = some k then (g.node? k).map (·.dropChild id) else g.node? k := by
  unfold forget node?
  cases stands : n.parent with
  | none => simp
  | some p =>
    simp only [OrderedMap.get?_modify]
    by_cases here : k = p
    · rw [if_pos here, if_pos (congrArg some here.symm), here]
      rfl
    · rw [if_neg here, if_neg fun same => here (Option.some.inj same).symm]

theorem edge?_forget {k : EdgeId} :
    (g.forget n id).edge? k = (g.edge? k).filter fun e => !e.involvesNode id :=
  OrderedMap.get?_filter

theorem any_involvesNode (e : Edge) (ids : List NodeId) :
    ids.any e.involvesNode = (decide (e.output.node ∈ ids) || decide (e.input.node ∈ ids)) := by
  rw [Bool.eq_iff_iff]
  simp [Edge.involvesNode, List.any_eq_true, and_or_left, exists_or]

/-- Some of the nodes of a graph, and the edges between them. -/
def part (g : Graph) (inside : NodeId → Bool) : Graph :=
  { g with
    nodes := g.nodes.filter fun k _ => inside k
    edges := g.edges.filter fun _ e => inside e.output.node && inside e.input.node }

variable {inside also : NodeId → Bool}

theorem node?_part : (g.part inside).node? k = if inside k then g.node? k else none := by
  have filtered : (g.part inside).node? k = (g.node? k).filter fun _ => inside k :=
    OrderedMap.get?_filter
  rw [filtered]
  cases g.node? k <;> cases inside k <;> rfl

theorem edge?_part {k : EdgeId} : (g.part inside).edge? k =
    (g.edge? k).filter fun e => inside e.output.node && inside e.input.node :=
  OrderedMap.get?_filter

theorem part_part : (g.part inside).part also = g.part fun k => inside k && also k := by
  have edges : ∀ e : Edge, (inside e.output.node && inside e.input.node &&
      (also e.output.node && also e.input.node)) =
      (inside e.output.node && also e.output.node && (inside e.input.node && also e.input.node)) := by
    intro e
    ac_rfl
  simp only [part, OrderedMap.filter_filter, edges]

theorem part_all : (g.part fun _ => true) = g := by
  have nodes : (g.nodes.filter fun _ _ => true) = g.nodes := OrderedMap.filter_eq_self fun _ _ => rfl
  have edges : (g.edges.filter fun _ _ => true) = g.edges := OrderedMap.filter_eq_self fun _ _ => rfl
  simp only [part, Bool.and_self, nodes, edges]

/-- Where neither a node nor what it stands in is there any more, only its edges are left to forget. -/
theorem forget_eq_part (gone : g.node? id = none) (out : ∀ s, n.parent = some s → g.node? s = none)
    (plain : n.kind.function? = none) : g.forget n id = g.part (· ≠ id) := by
  have nodes : (g.forget n id).nodes = g.nodes.erase id := by
    rw [OrderedMap.erase_of_absent gone]
    unfold forget
    dsimp only
    split
    · rename_i stands
      exact OrderedMap.modify_of_absent (out _ stands)
    · rfl
  have vars : (g.forget n id).vars = g.vars := by
    unfold forget
    dsimp only
    split
    · rename_i kind
      rw [kind] at plain
      cases plain
    · rfl
  have edges : (g.forget n id).edges = (g.part (· ≠ id)).edges := by
    simp [forget, part, Edge.involvesNode]
  calc g.forget n id = ⟨g.name, g.stencil, (g.forget n id).nodes, (g.forget n id).edges,
        (g.forget n id).vars⟩ := rfl
    _ = g.part (· ≠ id) := by rw [nodes, vars, edges]; rfl

/-- Taking out a node that holds nothing and whose stack is gone already. -/
theorem removeWithin_child {h : Graph} {c : NodeId} {m : Node} (depth : Nat)
    (found : h.node? c = some m) (stands : m.parent = some id) (bare : m.children = [])
    (plain : m.kind.function? = none) (gone : h.node? id = none) :
    removeWithin (depth + 1) h c = h.part (· ≠ c) := by
  let without : Graph := { h with nodes := h.nodes.erase c }
  have out : ∀ s, m.parent = some s → without.node? s = none := by
    rw [stands]
    rintro _ ⟨⟩
    rw [node?_erase, gone, ite_self]
  have forgotten : without.forget m c = without.part (· ≠ c) :=
    forget_eq_part (by rw [node?_erase, if_pos rfl]) out plain
  have nodes : (h.nodes.erase c).erase c = h.nodes.erase c :=
    OrderedMap.erase_of_absent (by rw [OrderedMap.get?_erase, if_pos rfl])
  simp only [removeWithin, found, bare, List.foldl_nil]
  rw [forgotten]
  exact congrArg (fun nodes => (⟨h.name, h.stencil, nodes, _, h.vars⟩ : Graph)) nodes

theorem removeWithin_children {h : Graph} {children : List NodeId} (depth : Nat)
    (members : ∀ c ∈ children, ∃ m, h.node? c = some m ∧ m.parent = some id ∧ m.children = [] ∧
      m.kind.function? = none)
    (nodup : children.Nodup) (gone : h.node? id = none) :
    children.foldl (removeWithin (depth + 1)) h = h.part (· ∉ children) := by
  induction children generalizing h with
  | nil => simp [part_all]
  | cons c rest ih =>
    obtain ⟨⟨m, found, stands, bare, plain⟩, members⟩ := List.forall_mem_cons.mp members
    obtain ⟨new, nodup⟩ := List.nodup_cons.mp nodup
    have others : ∀ c' ∈ rest, ∃ m, (h.part (· ≠ c)).node? c' = some m ∧ m.parent = some id ∧
        m.children = [] ∧ m.kind.function? = none := by
      intro c' member
      have other : c' ≠ c := by
        rintro rfl
        exact new member
      obtain ⟨m', found', rest⟩ := members c' member
      exact ⟨m', by rw [node?_part, if_pos (by simpa using other), found'], rest⟩
    rw [List.foldl_cons, removeWithin_child depth found stands bare plain gone,
      ih others nodup (by rw [node?_part, gone, ite_self]), part_part]
    simp

/-- What stands in a node holds nothing itself. -/
theorem Linked.children_eq_nil (linked : g.Linked) {c : NodeId} {m : Node}
    (found : g.node? c = some m) (stands : m.parent = some id) : m.children = [] := by
  refine List.eq_nil_iff_forall_not_mem.mpr fun d deeper => ?_
  obtain ⟨x, foundD, standsD⟩ := linked.holds found deeper
  obtain ⟨h, foundH, stack, _⟩ := linked.held foundD standsD
  obtain rfl := Option.some.inj (found.symm.trans foundH)
  simp [linked.flat found stack] at stands

theorem Linked.not_mem_children (linked : g.Linked) (found : g.node? id = some n) :
    id ∉ n.children := by
  intro member
  obtain ⟨m, foundM, stands⟩ := linked.holds found member
  obtain rfl := Option.some.inj (found.symm.trans foundM)
  simp [linked.children_eq_nil found stands] at member

/-- A graph with a node that holds others is larger than one. -/
theorem Linked.children_eq_nil_of_size (linked : g.Linked) (found : g.node? id = some n)
    (size : g.nodes.size = 1) : n.children = [] := by
  refine List.eq_nil_iff_forall_not_mem.mpr fun c member => ?_
  obtain ⟨m, foundC, _⟩ := linked.holds found member
  have here := OrderedMap.mem_keys_of_get? found
  have there := OrderedMap.mem_keys_of_get? foundC
  rw [← OrderedMap.length_keys] at size
  obtain ⟨only, single⟩ := List.length_eq_one_iff.mp size
  rw [single, List.mem_singleton] at here there
  rw [there, ← here] at member
  exact linked.not_mem_children found member

/-- What stands in a node is no function. -/
theorem Linked.function?_eq_none (linked : g.Linked) {c : NodeId} {m : Node}
    (found : g.node? c = some m) (stands : m.parent = some id) : m.kind.function? = none := by
  have single : m.kind.isStack = false := by
    by_contra stack
    simp [linked.flat found (by simpa using stack)] at stands
  cases kind : m.kind <;> simp_all [NodeKind.isStack, NodeKind.function?]

/-- A node is forgotten behind the removal of all that stands in it. -/
theorem Linked.remove_eq (linked : g.Linked) (found : g.node? id = some n) : (g.remove id).2 =
    (Graph.part { g with nodes := g.nodes.erase id } (· ∉ n.children)).forget n id := by
  let without : Graph := { g with nodes := g.nodes.erase id }
  obtain ⟨depth, size⟩ : ∃ depth, g.nodes.size = depth + 1 := by
    refine Nat.exists_eq_succ_of_ne_zero fun nothing => ?_
    have member := OrderedMap.mem_keys_of_get? found
    rw [← OrderedMap.length_keys, List.length_eq_zero_iff] at nothing
    simp [nothing] at member
  have cleared : n.children.foldl (removeWithin depth) without = without.part (· ∉ n.children) := by
    cases depth with
    | zero => simp [linked.children_eq_nil_of_size found size, part_all]
    | succ depth =>
      refine removeWithin_children depth (fun c member => ?_) (linked.once found)
        (by rw [node?_erase, if_pos rfl])
      obtain ⟨m, foundC, stands⟩ := linked.holds found member
      have other : c ≠ id := by
        rintro rfl
        exact linked.not_mem_children found member
      exact ⟨m, by rw [node?_erase, if_neg other, foundC], stands, linked.children_eq_nil foundC stands,
        linked.function?_eq_none foundC stands⟩
  simp only [remove, size, removeWithin, found]
  rw [cleared]

/-- Removing a node takes out exactly it, what stands in it, and the edges at either. -/
theorem Linked.remove_spec (linked : g.Linked) (found : g.node? id = some n) :
    Without id n g (g.remove id).2 := by
  rw [linked.remove_eq found]
  refine ⟨fun k => ?_, fun k => ?_⟩
  · rw [node?_forget, node?_part, node?_erase]
    by_cases self : k = id
    · simp [self]
    · by_cases child : k ∈ n.children <;> simp [self, child]
  · have still : Graph.edge? { g with nodes := g.nodes.erase id } k = g.edge? k := rfl
    rw [edge?_forget, edge?_part, still, Option.filter_filter]
    congr 1
    funext e
    rw [any_involvesNode]
    by_cases self : e.output.node = id <;> by_cases other : e.input.node = id <;>
      simp [Edge.involvesNode, self, other]

/-- A node that stands nowhere is removed with what stands in it, and the rest of the graph is left. -/
theorem Linked.remove_eq_part (linked : g.Linked) (found : g.node? id = some n)
    (free : n.parent = none) (plain : n.kind.function? = none) :
    (g.remove id).2 = g.part (· ∉ id :: n.children) := by
  have gone : (Graph.part { g with nodes := g.nodes.erase id } (· ∉ n.children)).node? id = none := by
    rw [node?_part, node?_erase, if_pos rfl, ite_self]
  rw [linked.remove_eq found, forget_eq_part gone (by simp [free]) plain, part_part, part, part,
    OrderedMap.erase, OrderedMap.filter_filter]
  congr 1
  · congr 1
    funext k _
    by_cases self : k = id <;> simp [self]
  · congr 1
    funext _ e
    by_cases self : e.output.node = id <;> by_cases other : e.input.node = id <;>
      simp [self, other]

namespace Without

variable {m : Node} (without : Without id n g g')

include without

theorem kept (found : g.node? k = some m) (stays : k ∉ id :: n.children) :
    ∃ m', g'.node? k = some m' ∧ m'.id = m.id ∧ m'.parent = m.parent ∧ m'.kind = m.kind ∧
      ∀ c ∈ m.children, c ≠ id → c ∈ m'.children := by
  rw [without.nodes, if_neg stays, found]
  by_cases stack : n.parent = some k
  · rw [if_pos stack]
    refine ⟨_, rfl, rfl, rfl, rfl, fun c inside other => ?_⟩
    exact List.mem_filter.mpr ⟨inside, by simpa using other⟩
  · rw [if_neg stack]
    exact ⟨m, rfl, rfl, rfl, rfl, fun _ inside _ => inside⟩

theorem exists_of_node? (found : g'.node? k = some m) : k ∉ id :: n.children ∧
    ∃ m', g.node? k = some m' ∧ m.id = m'.id ∧ m.parent = m'.parent ∧ m.kind = m'.kind ∧
      m.children.Sublist m'.children ∧ (n.parent = some k → id ∉ m.children) := by
  rw [without.nodes] at found
  split at found
  · simp at found
  · rename_i stays
    refine ⟨stays, ?_⟩
    split at found
    · obtain ⟨m', before, rfl⟩ := Option.map_eq_some_iff.mp found
      exact ⟨m', before, rfl, rfl, rfl, List.filter_sublist, fun _ => by simp [Node.dropChild]⟩
    · rename_i other
      exact ⟨m, found, rfl, rfl, rfl, List.Sublist.refl _, fun stack => absurd stack other⟩

/-- What is left stands where it stood. -/
theorem stackOf?_eq (found : g'.node? k = some m) : g'.stackOf? k = g.stackOf? k := by
  obtain ⟨-, m', before, -, same, -⟩ := without.exists_of_node? found
  rw [Graph.stackOf?_eq found, Graph.stackOf?_eq before, same]

theorem root_eq (found : g'.node? k = some m) : g'.root k = g.root k := by
  rw [root, root, without.stackOf?_eq found]

theorem edge?_of_edge? {k : EdgeId} {e : Edge} (found : g'.edge? k = some e) :
    g.edge? k = some e := by
  rw [without.edges, Option.filter_eq_some_iff] at found
  exact found.1

/-- An edge that is left has no end at what is gone. -/
theorem stays_of_edge {k : EdgeId} {e : Edge} {x : NodeId} (found : g'.edge? k = some e)
    (involved : e.involvesNode x = true) : x ∉ id :: n.children := by
  intro member
  rw [without.edges, Option.filter_eq_some_iff] at found
  have hit : (id :: n.children).any e.involvesNode = true :=
    List.any_eq_true.mpr ⟨x, member, involved⟩
  simp [hit] at found

/-- Links stay in order when a node is taken out. -/
theorem linked (linked : g.Linked) (found : g.node? id = some n) : g'.Linked := by
  constructor
  · intro k m foundK
    obtain ⟨-, m', before, same, -⟩ := without.exists_of_node? foundK
    exact same.trans (linked.nodeFiled before)
  · exact fun found => linked.edgeFiled (without.edge?_of_edge? found)
  · intro k m s foundK stands
    obtain ⟨stays, m', before, -, parent, -⟩ := without.exists_of_node? foundK
    obtain ⟨h, foundS, stack, inside⟩ := linked.held before (parent.symm.trans stands)
    have staysS : s ∉ id :: n.children := by
      intro gone
      rcases List.mem_cons.mp gone with rfl | child
      · obtain rfl := Option.some.inj (found.symm.trans foundS)
        exact stays (.tail _ inside)
      · obtain ⟨x, foundX, standsX⟩ := linked.holds found child
        obtain rfl := Option.some.inj (foundX.symm.trans foundS)
        simp [linked.flat foundS stack] at standsX
    obtain ⟨h', foundS', -, -, kind, children⟩ := without.kept foundS staysS
    exact ⟨h', foundS', kind ▸ stack, children k inside fun same => stays (same ▸ .head _)⟩
  · intro s h c foundS inside
    obtain ⟨staysS, h', before, -, -, -, children, dropped⟩ := without.exists_of_node? foundS
    obtain ⟨x, foundC, stands⟩ := linked.holds before (children.subset inside)
    have stays : c ∉ id :: n.children := by
      intro gone
      rcases List.mem_cons.mp gone with rfl | child
      · obtain rfl := Option.some.inj (found.symm.trans foundC)
        exact dropped stands inside
      · obtain ⟨x', foundX, standsX⟩ := linked.holds found child
        obtain rfl := Option.some.inj (foundX.symm.trans foundC)
        obtain rfl := Option.some.inj (standsX.symm.trans stands)
        exact staysS (.head _)
    obtain ⟨x', foundC', -, parent, -⟩ := without.kept foundC stays
    exact ⟨x', foundC', parent.trans stands⟩
  · intro s h foundS
    obtain ⟨-, h', before, -, -, -, children, -⟩ := without.exists_of_node? foundS
    exact (linked.once before).sublist children
  · intro s h foundS stack
    obtain ⟨-, h', before, -, parent, kind, -⟩ := without.exists_of_node? foundS
    exact parent.trans (linked.flat before (kind ▸ stack))

end Without

end Graph

end NodeScript
