import NodeScript.Proofs.Graph.WellFormed

/-!
Creations that are undone. A node whose ports cannot be defined is taken out again when it is already
in the graph, and when a stack holds it already. Nothing of it stays behind, wherever it was put.
-/

namespace NodeScript

/-- What is put into a list stands between the same front and back as before. -/
theorem insertIdx_eq_append {α : Type} {items : List α} {i : Nat} (within : i ≤ items.length) (x : α) :
    items.insertIdx i x = items.take i ++ x :: items.drop i := by
  induction i generalizing items with
  | zero => simp
  | succ i ih =>
    cases items with
    | nil => exact absurd within (Nat.not_succ_le_zero i)
    | cons y rest =>
      rw [List.insertIdx_succ_cons, ih (Nat.le_of_succ_le_succ within)]
      rfl

/-- A node that comes to hold another one and is rid of it is what it was. -/
theorem Node.dropChild_insertChild {n : Node} {place : Nat} {child : NodeId}
    (within : place ≤ n.children.length) (new : child ∉ n.children) :
    (n.insertChild place child).dropChild child = n := by
  have kept : ∀ part, part ⊆ n.children → part.filter (· ≠ child) = part := by
    intro part inside
    refine List.filter_eq_self.mpr fun c member => ?_
    have other : c ≠ child := by
      rintro rfl
      exact new (inside member)
    simpa using other
  have children : (n.children.insertIdx place child).filter (· ≠ child) = n.children := by
    rw [insertIdx_eq_append within, List.filter_append, List.filter_cons_of_neg (by simp),
      kept _ (List.take_subset _ _), kept _ (List.drop_subset _ _), List.take_append_drop]
  rw [dropChild, insertChild]
  dsimp only
  rw [children]

namespace Graph

variable {g g' : Graph} {id stack : NodeId} {n holder : Node} {kind : NodeKind} {env : DefinitionEnv}
  {supply supply' : IdSupply} {e : GraphError}

/-- The edges of a well-formed graph have no ends at a node that is not there. -/
theorem WellFormed.not_involvesNode (formed : g.WellFormed) (absent : g.node? id = none) {k : EdgeId}
    {edge : Edge} (held : g.edge? k = some edge) : edge.involvesNode id = false := by
  obtain ⟨p, q, source, target, -⟩ := formed.joined held
  obtain ⟨m, foundM, -⟩ := exists_of_portAt? source
  obtain ⟨m', foundM', -⟩ := exists_of_portAt? target
  have apart : ∀ {k m}, g.node? k = some m → k ≠ id := by
    rintro _ _ found rfl
    rw [absent] at found
    cases found
  simp [Edge.involvesNode, apart foundM, apart foundM']

/-- What a node that is no function leaves behind in its stack and at its edges is forgotten. -/
theorem forget_child (stands : n.parent = some stack) (plain : n.kind.function? = none) :
    g.forget n id = { g with
      nodes := g.nodes.modify stack (·.dropChild id)
      edges := g.edges.filter fun _ e => !e.involvesNode id } := by
  unfold forget
  rw [stands]
  dsimp only
  split
  · rename_i function
    rw [function] at plain
    cases plain
  · rfl

/-- A node that was put into a stack of a well-formed graph and is removed leaves the graph as it was. -/
theorem remove_stackNode {place : Nat} (formed : g.WellFormed) (fresh : g.node? n.id = none)
    (found : g.node? stack = some holder) (isStack : holder.kind.isStack = true)
    (within : place ≤ holder.children.length) (stands : n.parent = some stack)
    (bare : n.children = []) (single : n.kind.isStack = false) :
    ((g.stackNode n stack place).remove n.id).2 = g := by
  have away : stack ≠ n.id := stack_ne fresh found
  have linked := formed.toLinked.stackNode fresh found isStack within stands bare single
  have foundN : (g.stackNode n stack place).node? n.id = some n := by
    rw [node?_stackNode fresh found, if_neg away.symm, if_pos rfl]
  have new : n.id ∉ holder.children := by
    intro inside
    obtain ⟨m, foundM, -⟩ := formed.holds found inside
    rw [fresh] at foundM
    cases foundM
  have plain : n.kind.function? = none := by
    cases kind : n.kind <;> first | rfl | (rw [kind] at single; cases single)
  -- the node goes, and then its stack is what it was
  have nodes : ((g.stackNode n stack place).nodes.erase n.id).modify stack (·.dropChild n.id) =
      g.nodes := by
    rw [nodes_stackNode fresh found, OrderedMap.erase_insert_of_ne away, OrderedMap.erase_insert fresh,
      OrderedMap.modify_of_get? OrderedMap.get?_insert_self, OrderedMap.insert_insert,
      Node.dropChild_insertChild within new, OrderedMap.insert_of_get? found]
  have edges : (g.edges.filter fun _ e => !e.involvesNode n.id) = g.edges := by
    refine OrderedMap.ext (List.filter_eq_self.mpr fun entry member => ?_)
    have held : g.edge? entry.1 = some entry.2 := OrderedMap.get?_eq_some_iff.mpr member
    simp [formed.not_involvesNode fresh held]
  have all : ∀ h : Graph, h.part (· ∉ ([] : List NodeId)) = h := by
    intro h
    simp only [List.not_mem_nil, not_false_eq_true, decide_true]
    exact part_all
  rw [linked.remove_eq foundN, bare, all, forget_child stands plain]
  dsimp only
  rw [nodes]
  exact congrArg (fun kept => { g with edges := kept }) edges

/-- A creation that has failed gave up an identity at most: the graph is as it was, if it was
well-formed and did not use that identity. -/
def Restored (g g' : Graph) (supply supply' : IdSupply) : Prop :=
  (g' = g ∧ supply' = supply) ∨
    (supply' = supply.fresh.2 ∧ (g.WellFormed → g.node? ⟨supply.fresh.1⟩ = none → g' = g))

theorem Restored.eq (restored : Restored g g' supply supply') (formed : g.WellFormed)
    (fresh : g.node? ⟨supply.fresh.1⟩ = none) : g' = g := by
  obtain ⟨same, -⟩ | ⟨-, back⟩ := restored
  · exact same
  · exact back formed fresh

theorem spawn_error {position : Position}
    (run : g.spawn env kind position supply = (.error e, g', supply')) :
    Restored g g' supply supply' := by
  unfold spawn at run
  split at run
  · dsimp only at run
    split at run
    · cases (Prod.mk.inj run).1
    · obtain ⟨rfl, rfl⟩ := Prod.mk.inj (Prod.mk.inj run).2
      refine .inr ⟨rfl, fun _ fresh => ?_⟩
      have nodes : (g.nodes.insert ⟨supply.fresh.1⟩
          { Node.new ⟨supply.fresh.1⟩ kind with position }).erase ⟨supply.fresh.1⟩ = g.nodes :=
        OrderedMap.erase_insert fresh
      exact congrArg (fun kept => { g with nodes := kept }) nodes
  · obtain ⟨rfl, rfl⟩ := Prod.mk.inj (Prod.mk.inj run).2
    exact .inl ⟨rfl, rfl⟩

theorem push_error {index : Option Nat}
    (run : g.push env stack index kind supply = (.error e, g', supply')) :
    Restored g g' supply supply' := by
  obtain ⟨e', refused⟩ | ⟨holder, added, found, isStack, single, rfl, pushed⟩ :=
    push_cases g env stack index kind supply
  · rw [refused] at run
    obtain ⟨rfl, rfl⟩ := Prod.mk.inj (Prod.mk.inj run).2
    exact .inl ⟨rfl, rfl⟩
  · rw [pushed] at run
    split at run
    · cases (Prod.mk.inj run).1
    · obtain ⟨rfl, rfl⟩ := Prod.mk.inj (Prod.mk.inj run).2
      exact .inr ⟨rfl, fun formed fresh =>
        remove_stackNode formed fresh found isStack (Nat.min_le_right _ _) rfl rfl single⟩

end Graph

end NodeScript
