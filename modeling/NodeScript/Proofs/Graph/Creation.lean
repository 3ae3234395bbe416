import NodeScript.Proofs.Graph.Exactness

/-!
What creating a node does to a graph: all of it or nothing. Where the ports of the new node cannot be
defined the graph is what it was, and where they can be, the node is the last of the graph, it stands
at its place in its stack, and nothing else has changed.
-/

namespace NodeScript

namespace Graph

variable {g g' : Graph} {id stack : NodeId} {n : Node} {kind : NodeKind} {env : DefinitionEnv}
  {index : Option Nat} {supply supply' : IdSupply}

/-- A new node with the ports of its kind: nothing stands in it, and what else it has it was made
with. -/
def FreshNode (g : Graph) (env : DefinitionEnv) (made n : Node) : Prop :=
  ∃ specs, made.kind.definePorts env g.vars (g.returnTypeOf? made.id) = .ok specs ∧ n.Shows specs ∧
    n = { made with
      inputs := n.inputs, outputs := n.outputs, constants := n.constants, defined := true }

/-- A node has come to a graph as the last one, and there is nothing new beside the nodes. -/
structure CreatedAt (g g' : Graph) (id : NodeId) (n : Node) : Prop where
  new : g.node? id = none
  now : g'.node? id = some n
  order : g'.nodes.keys = g.nodes.keys ++ [id]
  edges : g'.edges = g.edges
  vars : g'.vars = g.vars
  name : g'.name = g.name
  stencil : g'.stencil = g.stencil

/-- A node has come to a graph and into a stack, between those that stand before its place and those
that stand behind it. -/
structure PushedAt (g g' : Graph) (stack : NodeId) (index : Option Nat) (id : NodeId) (n : Node) :
    Prop extends CreatedAt g g' id n where
  held : ∃ holder, g.node? stack = some holder ∧ holder.kind.isStack = true ∧
    g'.node? stack = some { holder with
      children :=
        let place := min (index.getD holder.children.length) holder.children.length
        holder.children.take place ++ id :: holder.children.drop place }
  others : ∀ k, k ≠ id → k ≠ stack → g'.node? k = g.node? k

/-- Defining the ports of a new node changes the node alone. -/
theorem defineNode_freshNode (found : g.node? id = some n) (filed : n.id = id) (bare : n.ports = [])
    (run : g.defineNode env id supply = .ok (g', supply')) :
    ∃ n', FreshNode g' env n n' ∧ g' = { g with nodes := g.nodes.insert id n' } := by
  obtain ⟨specs, ports, defined, specified, made⟩ := defineNode_bare found bare run
  have vars : g'.vars = g.vars := by rw [made]
  have again : n.kind.definePorts env g'.vars (g'.returnTypeOf? n.id) = .ok specs := by
    rw [vars, filed, ← defined]
    by_cases leaves : n.kind = .leave
    · have single : n.kind.isStack = false := by rw [leaves]; rfl
      rw [returnTypeOf?_of_defined found bare single run]
    · exact definePorts_unless_leave leaves env g.vars _ _
  exact ⟨_, ⟨specs, again, n.shows_withPorts env.oracle specified, rfl⟩, made⟩

theorem spawn_createdAt {position : Position} (fresh : g.node? ⟨supply.fresh.1⟩ = none)
    (run : g.spawn env kind position supply = (.ok id, g', supply')) :
    id = ⟨supply.fresh.1⟩ ∧ ∃ n, FreshNode g' env { Node.new id kind with position } n ∧
      CreatedAt g g' id n ∧ ∀ k, k ≠ id → g'.node? k = g.node? k := by
  obtain ⟨rfl, defined⟩ := spawn_defined run
  have added : (g.addNode { Node.new ⟨supply.fresh.1⟩ kind with position }).node?
      ⟨supply.fresh.1⟩ = some { Node.new ⟨supply.fresh.1⟩ kind with position } := by
    rw [node?_addNode]
    exact if_pos rfl
  obtain ⟨n, made, rfl⟩ := defineNode_freshNode added rfl rfl defined
  have nodes : (g.addNode { Node.new ⟨supply.fresh.1⟩ kind with position }).nodes.insert
      ⟨supply.fresh.1⟩ n = g.nodes.insert ⟨supply.fresh.1⟩ n := OrderedMap.insert_insert
  refine ⟨rfl, n, made, ⟨fresh, OrderedMap.get?_insert_self, ?_, rfl, rfl, rfl, rfl⟩, fun k other => ?_⟩
  · rw [nodes, OrderedMap.keys_insert, if_neg (OrderedMap.get?_eq_none_iff.mp fresh)]
  · rw [node?, nodes]
    exact OrderedMap.get?_insert_of_ne other

theorem push_pushedAt (fresh : g.node? ⟨supply.fresh.1⟩ = none)
    (run : g.push env stack index kind supply = (.ok id, g', supply')) :
    id = ⟨supply.fresh.1⟩ ∧ ∃ n, FreshNode g' env { Node.new id kind with parent := some stack } n ∧
      PushedAt g g' stack index id n := by
  obtain ⟨rfl, -, holder, place, found, isStack, placed, defined⟩ := push_defined run
  generalize bare : ({ Node.new ⟨supply.fresh.1⟩ kind with parent := some stack } : Node) = new at *
  have filed : new.id = ⟨supply.fresh.1⟩ := by rw [← bare]; rfl
  have fresh' : g.node? new.id = none := filed ▸ fresh
  have away : stack ≠ ⟨supply.fresh.1⟩ := filed ▸ stack_ne fresh' found
  have added : (g.stackNode new stack place).node? ⟨supply.fresh.1⟩ = some new := by
    rw [node?_stackNode fresh' found, if_neg away.symm, if_pos filed.symm]
  obtain ⟨n, made, rfl⟩ := defineNode_freshNode added filed (by rw [← bare]; rfl) defined
  refine ⟨rfl, n, made, ⟨fresh, OrderedMap.get?_insert_self, ?_, rfl, rfl, rfl, rfl⟩,
    ⟨holder, found, isStack, ?_⟩, fun k other apart => ?_⟩
  · refine OrderedMap.keys_insert.trans ((if_pos (OrderedMap.mem_keys_of_get? added)).trans ?_)
    rw [keys_stackNode fresh' found, filed]
  · have held : OrderedMap.get? ((g.stackNode new stack place).nodes.insert ⟨supply.fresh.1⟩ n) stack =
        some (holder.insertChild place new.id) := by
      rw [OrderedMap.get?_insert_of_ne away]
      exact (node?_stackNode fresh' found).trans (if_pos rfl)
    rw [node?, held, Node.insertChild, filed, insertIdx_eq_append (placed ▸ Nat.min_le_right _ _), placed]
  · refine (OrderedMap.get?_insert_of_ne other).trans ?_
    exact (node?_stackNode fresh' found).trans ((if_neg apart).trans (if_neg (filed ▸ other)))

/-- Creating a node of any kind, in a well-formed graph and under an identity that no node has. When
it fails, the graph is exactly what it was. When it succeeds, one node has come to it as the last one
of the graph, in its stack too if it was pushed, and nothing else has changed. -/
theorem creation_allOrNothing (formed : g.WellFormed) (fresh : g.node? ⟨supply.fresh.1⟩ = none)
    (env : DefinitionEnv) (kind : NodeKind) :
    (∀ position e g' supply', g.spawn env kind position supply = (.error e, g', supply') → g' = g) ∧
    (∀ stack index e g' supply',
      g.push env stack index kind supply = (.error e, g', supply') → g' = g) ∧
    (∀ position id g' supply', g.spawn env kind position supply = (.ok id, g', supply') →
      ∃ n, FreshNode g' env { Node.new id kind with position } n ∧ CreatedAt g g' id n ∧
        ∀ k, k ≠ id → g'.node? k = g.node? k) ∧
    ∀ stack index id g' supply', g.push env stack index kind supply = (.ok id, g', supply') →
      ∃ n, FreshNode g' env { Node.new id kind with parent := some stack } n ∧
        PushedAt g g' stack index id n := by
  refine ⟨fun _ _ _ _ run => ?_, fun _ _ _ _ _ run => ?_, fun _ _ _ _ run => ?_,
    fun _ _ _ _ _ run => ?_⟩
  · exact (spawn_error run).eq formed fresh
  · exact (push_error run).eq formed fresh
  · exact (spawn_createdAt fresh run).2
  · exact (push_pushedAt fresh run).2

/-- A call of an unknown method is not put in front of the choice, and another choice is put behind
it. -/
theorem creation_allOrNothing_branching :
    let env : DefinitionEnv := ⟨TypeDatabase.empty.toOracle, ∅⟩
    let stack : NodeId := ⟨familyIdentity 0 0⟩
    let unknown : NodeKind := .call (.plain ⟨"Nobody", "Nothing"⟩)
    branching.1.WellFormed ∧ branching.1.node? ⟨branching.2.fresh.1⟩ = none ∧
      (∃ e g' supply', branching.1.push env stack (some 0) unknown branching.2 =
        (.error e, g', supply') ∧ g' = branching.1) ∧
      ∃ id g' supply' n, branching.1.push env stack (some 9) .branch branching.2 =
        (.ok id, g', supply') ∧ PushedAt branching.1 g' stack (some 9) id n := by
  intro env stack unknown
  have formed : branching.1.WellFormed := branching_tended.toWellFormed
  have fresh : branching.1.node? ⟨branching.2.fresh.1⟩ = none := by decide +kernel
  have fails : (branching.1.push env stack (some 0) unknown branching.2).1.toOption.isNone = true := by
    decide +kernel
  have succeeds : (branching.1.push env stack (some 9) .branch branching.2).1.toOption.isSome = true := by
    decide +kernel
  refine ⟨formed, fresh, ?_, ?_⟩
  · rcases run : branching.1.push env stack (some 0) unknown branching.2 with ⟨e | id, g', supply'⟩
    · exact ⟨e, g', supply', rfl, (creation_allOrNothing formed fresh env unknown).2.1 _ _ _ _ _ run⟩
    · rw [run] at fails
      cases fails
  · rcases run : branching.1.push env stack (some 9) .branch branching.2 with ⟨e | id, g', supply'⟩
    · rw [run] at succeeds
      cases succeeds
    · obtain ⟨n, -, pushed⟩ := (creation_allOrNothing formed fresh env .branch).2.2.2 _ _ _ _ _ run
      exact ⟨id, g', supply', n, rfl, pushed⟩

end Graph

end NodeScript
